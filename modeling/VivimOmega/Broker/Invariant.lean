import VivimOmega.Broker.Lanes

/-! What every step of the broker keeps of its pools, its lanes and the calls on them. -/

namespace VivimOmega.Broker

open Library

variable {pools : Pools} {s t : State} {l : ℕ}

/-- A call that `call` has not come back from. -/
def Open (s : State) (id : ℕ) : Prop := (s.jobs id).resumed = false

structure Core (pools : Pools) (s : State) : Prop where
  member : ∀ p, ∀ l ∈ s.members p, l < s.spawned ∧ (s.lanes l).pool = p
  nodup : ∀ p, (s.members p).Nodup
  size : ∀ p cfg, pools.get? p = some cfg → (s.members p).length ≤ cfg.size
  carried : ∀ id, Open s id → id < s.nextId ∧ (s.jobs id).lane < s.spawned ∧ (s.lanes (s.jobs id).lane).busy = true ∧
    (s.lanes (s.jobs id).lane).pool = (s.jobs id).pool
  single : ∀ i j, Open s i → Open s j → (s.jobs i).lane = (s.jobs j).lane → i = j
  pending : ∀ l, ∀ id ∈ (s.lanes l).pending, id < s.nextId ∧ (s.jobs id).lane = l
  waiting : ∀ id, Open s id → (s.jobs id).result = none → id ∈ (s.lanes (s.jobs id).lane).pending ∧
    (s.lanes (s.jobs id).lane).closed = false
  busy : ∀ p, ∀ l ∈ s.members p, (s.lanes l).busy = true → ∃ id, Open s id ∧ (s.jobs id).lane = l
  exited : ∀ l, (s.lanes l).exited = true → (s.lanes l).closed = true

/-- No call on this lane is still without a result. -/
def Served (s : State) (l : ℕ) : Prop := ∀ id, Open s id → (s.jobs id).lane = l → (s.jobs id).result ≠ none

section Fields

variable (s) (l' : ℕ) (lane : Lane) (ids : List ℕ) (c : Settled) (failure : LaneFailure)

lemma lanes_setLane : (s.setLane l lane).lanes l' = if l' = l then lane else s.lanes l' := by
  by_cases h : l' = l
  · rw [if_pos h, h]
    exact Function.update_self ..
  · rw [if_neg h]
    exact Function.update_of_ne h ..

@[simp] lemma lanes_setLane_self : (s.setLane l lane).lanes l = lane := Function.update_self ..

@[simp] lemma setLane_jobs : (s.setLane l lane).jobs = s.jobs := rfl

@[simp] lemma resolve_lanes : (s.resolve ids c).lanes = s.lanes := rfl

@[simp] lemma settlePending_members : (s.settlePending l failure).members = s.members := rfl

lemma resolve_resumed (id : ℕ) : ((s.resolve ids c).jobs id).resumed = (s.jobs id).resumed := by
  simp only [State.resolve]
  split_ifs
  · rw [State.resolveJob]
    split_ifs <;> rfl
  · rfl

lemma resolve_lane (id : ℕ) : ((s.resolve ids c).jobs id).lane = (s.jobs id).lane := by
  simp only [State.resolve]
  split_ifs
  · rw [State.resolveJob]
    split_ifs <;> rfl
  · rfl

lemma resolve_pool (id : ℕ) : ((s.resolve ids c).jobs id).pool = (s.jobs id).pool := by
  simp only [State.resolve]
  split_ifs
  · rw [State.resolveJob]
    split_ifs <;> rfl
  · rfl

lemma resolve_result (id : ℕ) : ((s.resolve ids c).jobs id).result =
    if id ∈ ids then some ((s.jobs id).result.getD c) else (s.jobs id).result := by
  simp only [State.resolve]
  split_ifs with hid
  · rw [State.resolveJob]
    cases hr : (s.jobs id).result with
    | none => simp
    | some d => simp [hr]
  · rfl

lemma open_resolve (id : ℕ) : Open (s.resolve ids c) id ↔ Open s id := by
  rw [Open, Open, resolve_resumed]

end Fields

/-- A lane may be written over where its pool stays, the calls that wait on it stay pending on an open handle, and
it is busy as long as a call is on it. -/
lemma Core.setLane (h : Core pools s) {lane : Lane} (hpool : lane.pool = (s.lanes l).pool)
    (hpending : ∀ id ∈ lane.pending, id ∈ (s.lanes l).pending)
    (hwaiting : ∀ id, Open s id → (s.jobs id).lane = l → (s.jobs id).result = none →
      id ∈ lane.pending ∧ lane.closed = false)
    (hbusy : lane.busy = true ↔ (s.lanes l).busy = true) (hexited : lane.exited = true → lane.closed = true) :
    Core pools (s.setLane l lane) where
  member := by
    intro p l' hl'
    obtain ⟨hlt, hp⟩ := h.member p l' hl'
    refine ⟨hlt, ?_⟩
    rw [lanes_setLane]
    split_ifs with heq
    · rw [hpool, ← heq, hp]
    · exact hp
  nodup := h.nodup
  size := h.size
  carried := by
    intro id hopen
    obtain ⟨hid, hlane, hb, hp⟩ := h.carried id hopen
    refine ⟨hid, hlane, ?_⟩
    rw [setLane_jobs, lanes_setLane]
    split_ifs with heq
    · rw [heq] at hb hp
      exact ⟨hbusy.mpr hb, hpool.trans hp⟩
    · exact ⟨hb, hp⟩
  single := h.single
  pending := by
    intro l' id hid
    rw [lanes_setLane] at hid
    split_ifs at hid with heq
    · rw [heq]
      exact h.pending l id (hpending id hid)
    · exact h.pending l' id hid
  waiting := by
    intro id hopen hresult
    rw [setLane_jobs, lanes_setLane]
    split_ifs with heq
    · exact hwaiting id hopen heq hresult
    · exact h.waiting id hopen hresult
  busy := by
    intro p l' hl' hb
    rw [lanes_setLane] at hb
    split_ifs at hb with heq
    · rw [heq] at hl'
      obtain ⟨id, hid, hlane⟩ := h.busy p l hl' (hbusy.mp hb)
      exact ⟨id, hid, hlane.trans heq.symm⟩
    · exact h.busy p l' hl' hb
  exited := by
    intro l' he
    rw [lanes_setLane] at he ⊢
    split_ifs at he ⊢ with heq
    · exact hexited he
    · exact h.exited l' he

lemma Core.resolve (h : Core pools s) (ids : List ℕ) (c : Settled) : Core pools (s.resolve ids c) where
  member := h.member
  nodup := h.nodup
  size := h.size
  carried := by
    intro id hopen
    rw [resolve_lane, resolve_pool]
    exact h.carried id ((open_resolve ..).mp hopen)
  single := by
    intro i j hi hj hlane
    rw [resolve_lane, resolve_lane] at hlane
    exact h.single i j ((open_resolve ..).mp hi) ((open_resolve ..).mp hj) hlane
  pending := by
    intro l id hid
    rw [resolve_lane]
    exact h.pending l id hid
  waiting := by
    intro id hopen hresult
    rw [resolve_result] at hresult
    split_ifs at hresult
    rw [resolve_lane]
    exact h.waiting id ((open_resolve ..).mp hopen) hresult
  busy := by
    intro p l hl hb
    obtain ⟨id, hid, hlane⟩ := h.busy p l hl hb
    exact ⟨id, (open_resolve ..).mpr hid, (resolve_lane ..).trans hlane⟩
  exited := h.exited

lemma served_resolve (h : Core pools s) (c : Settled) : Served (s.resolve (s.lanes l).pending c) l := by
  intro id hopen hlane hresult
  rw [open_resolve] at hopen
  rw [resolve_lane] at hlane
  rw [resolve_result] at hresult
  split_ifs at hresult with hid
  exact hid (hlane ▸ (h.waiting id hopen hresult).1)

lemma served_setLane {lane : Lane} (l' : ℕ) (h : Served s l) : Served (s.setLane l' lane) l := h

lemma Core.settlePending (h : Core pools s) (failure : LaneFailure) :
    Core pools (s.settlePending l failure) ∧ Served (s.settlePending l failure) l := by
  have hserved : Served (s.resolve (s.lanes l).pending (.failed l failure)) l := served_resolve h _
  refine ⟨(h.resolve _ _).setLane rfl ?_ ?_ Iff.rfl (h.exited l), hserved⟩
  · exact fun id hid => absurd hid List.not_mem_nil
  · exact fun id hopen hlane hresult => absurd hresult (hserved id hopen hlane)

lemma Core.close (h : Core pools s) (hserved : Served s l) {lane : Lane} (hpool : lane.pool = (s.lanes l).pool)
    (hpending : lane.pending = (s.lanes l).pending) (hbusy : lane.busy = (s.lanes l).busy) (hclosed : lane.closed = true) :
    Core pools (s.setLane l lane) := by
  refine h.setLane hpool (fun id hid => hpending ▸ hid) ?_ (by rw [hbusy]) fun _ => hclosed
  exact fun id hopen hlane hresult => absurd hresult (hserved id hopen hlane)

/-- Lanes may leave their pools. -/
lemma Core.leave (h : Core pools s) {members : String → List ℕ} (hsub : ∀ p, (members p).Sublist (s.members p))
    (shutDown : Bool) : Core pools { s with members := members, shutDown := shutDown } where
  member := fun p l hl => h.member p l ((hsub p).subset hl)
  nodup := fun p => (h.nodup p).sublist (hsub p)
  size := fun p cfg hcfg => (hsub p).length_le.trans (h.size p cfg hcfg)
  carried := h.carried
  single := h.single
  pending := h.pending
  waiting := h.waiting
  busy := fun p l hl => h.busy p l ((hsub p).subset hl)
  exited := h.exited

lemma erase_members (s : State) (pool : String) (l : ℕ) (p : String) :
    (Function.update s.members pool ((s.members pool).erase l) p).Sublist (s.members p) := by
  by_cases hp : p = pool
  · rw [hp, Function.update_self]
    exact List.erase_sublist
  · rw [Function.update_of_ne hp]

lemma Core.retire (h : Core pools s) (hserved : Served s l) : Core pools (s.retire l) := by
  have hclose : Core pools (s.setLane l { s.lanes l with closed := true }) := h.close hserved rfl rfl rfl rfl
  exact hclose.leave (fun p => erase_members s _ l p) s.shutDown

lemma Core.flagMalformed (h : Core pools s) : Core pools (s.flagMalformed l) := by
  have hflag : Core pools (s.setLane l { s.lanes l with malformed := (s.lanes l).malformed + 1 }) :=
    h.setLane rfl (fun _ hid => hid) (fun id hopen hlane hresult => hlane ▸ h.waiting id hopen hresult) Iff.rfl
      (h.exited l)
  rw [State.flagMalformed]
  split_ifs
  · obtain ⟨hcore, hserved⟩ := hflag.settlePending (l := l) .flooded
    exact hcore.retire hserved
  · exact hflag

lemma Core.frame (h : Core pools s) (f : Frame) : Core pools (s.frame l f) := by
  cases f with
  | ready =>
    exact h.setLane rfl (fun _ hid => hid) (fun id hopen hlane hresult => hlane ▸ h.waiting id hopen hresult) Iff.rfl
      (h.exited l)
  | noise => exact h.flagMalformed
  | returned id ok =>
    rw [State.frame]
    split_ifs with hid
    · have hresolved : Core pools (s.resolve [id] (.returned l id ok)) := h.resolve _ _
      refine hresolved.setLane rfl (fun _ hmem => List.mem_of_mem_erase hmem) (fun j hopen hlane hresult => ?_) Iff.rfl
        (h.exited l)
      have hwaiting := hresolved.waiting j hopen hresult
      rw [hlane] at hwaiting
      refine ⟨(List.mem_erase_of_ne ?_).mpr hwaiting.1, hwaiting.2⟩
      rintro rfl
      rw [resolve_result, if_pos (List.mem_singleton_self _)] at hresult
      cases hresult
    · exact h

lemma Core.frames (h : Core pools s) (fs : List Frame) : Core pools (fs.foldl (State.frame l) s) := by
  induction fs generalizing s with
  | nil => exact h
  | cons f rest ih => exact ih (h.frame f)

lemma Core.exit (h : Core pools s) : Core pools (s.exit l) := by
  obtain ⟨hcore, hserved⟩ := h.settlePending (l := l) .exited
  exact hcore.close hserved rfl rfl rfl rfl

lemma Core.startTimeout (h : Core pools s) : Core pools (s.startTimeout l) := by
  have hdisarmed : Core pools (s.setLane l { s.lanes l with armed := false }) :=
    h.setLane rfl (fun _ hid => hid) (fun id hopen hlane hresult => hlane ▸ h.waiting id hopen hresult) Iff.rfl
      (h.exited l)
  rw [State.startTimeout]
  split_ifs
  · exact hdisarmed
  · obtain ⟨hcore, hserved⟩ := hdisarmed.settlePending (l := l) .notReady
    exact hcore.retire hserved

/-- Only the mark of its deadline changes. -/
lemma Core.expire (h : Core pools s) (id : ℕ) :
    Core pools { s with jobs := Function.update s.jobs id { s.jobs id with expired := true } } := by
  have hsame : ∀ j, (Function.update s.jobs id { s.jobs id with expired := true } j).resumed = (s.jobs j).resumed ∧
      (Function.update s.jobs id { s.jobs id with expired := true } j).lane = (s.jobs j).lane ∧
      (Function.update s.jobs id { s.jobs id with expired := true } j).pool = (s.jobs j).pool ∧
      (Function.update s.jobs id { s.jobs id with expired := true } j).result = (s.jobs j).result := by
    intro j
    by_cases hj : j = id
    · rw [hj, Function.update_self]
      exact ⟨rfl, rfl, rfl, rfl⟩
    · rw [Function.update_of_ne hj]
      exact ⟨rfl, rfl, rfl, rfl⟩
  have hopen : ∀ j, Open { s with jobs := Function.update s.jobs id { s.jobs id with expired := true } } j ↔ Open s j :=
    fun j => by rw [Open, Open, (hsame j).1]
  refine ⟨h.member, h.nodup, h.size, fun j hj => ?_, fun i j hi hj hlane => ?_, fun l j hj => ?_, fun j hj hresult => ?_,
    fun p l hl hb => ?_, h.exited⟩
  · dsimp only
    rw [(hsame j).2.1, (hsame j).2.2.1]
    exact h.carried j ((hopen j).mp hj)
  · dsimp only at hlane
    rw [(hsame i).2.1, (hsame j).2.1] at hlane
    exact h.single i j ((hopen i).mp hi) ((hopen j).mp hj) hlane
  · dsimp only
    rw [(hsame j).2.1]
    exact h.pending l j hj
  · dsimp only at hresult ⊢
    rw [(hsame j).2.2.2] at hresult
    rw [(hsame j).2.1]
    exact h.waiting j ((hopen j).mp hj) hresult
  · obtain ⟨j, hj, hlane⟩ := h.busy p l hl hb
    exact ⟨j, (hopen j).mpr hj, (hsame j).2.1.trans hlane⟩

lemma Core.deadline (h : Core pools s) (id : ℕ) : Core pools (s.deadline id) := (h.expire id).resolve _ _

section Resuming

variable {id : ℕ}

lemma open_resumed {j : Job} (hj : j.resumed = true) (i : ℕ) :
    (Function.update s.jobs id j i).resumed = false ↔ i ≠ id ∧ Open s i := by
  by_cases hi : i = id
  · rw [hi, Function.update_self, hj]
    simp
  · rw [Function.update_of_ne hi]
    simp [hi, Open]

/-- A call comes back from its lane, which is idle then or has left its pool. -/
lemma Core.release (h : Core pools s) (hopen : Open s id) (hresult : (s.jobs id).result ≠ none) {lane : Lane}
    {members : String → List ℕ} (hpool : lane.pool = (s.lanes (s.jobs id).lane).pool)
    (hpending : lane.pending = (s.lanes (s.jobs id).lane).pending) (hexited : lane.exited = true → lane.closed = true)
    (hsub : ∀ p, (members p).Sublist (s.members p))
    (hfree : lane.busy = false ∨ ∀ p, (s.jobs id).lane ∉ members p) :
    Core pools { s with
      jobs := Function.update s.jobs id { s.jobs id with resumed := true }
      lanes := Function.update s.lanes (s.jobs id).lane lane
      members := members } := by
  have hother : ∀ i, i ≠ id → Open s i → (s.jobs i).lane ≠ (s.jobs id).lane := fun i hi hiopen hlane =>
    hi (h.single i id hiopen hopen hlane)
  refine ⟨fun p l hl => ?_, fun p => (h.nodup p).sublist (hsub p), fun p cfg hcfg =>
    (hsub p).length_le.trans (h.size p cfg hcfg), fun i hi => ?_, fun i j hi hj hlane => ?_, fun l i hi => ?_,
    fun i hi hres => ?_, fun p l hl hb => ?_, fun l hl => ?_⟩
  · obtain ⟨hlt, hp⟩ := h.member p l ((hsub p).subset hl)
    refine ⟨hlt, ?_⟩
    by_cases hl' : l = (s.jobs id).lane
    · dsimp only
      rw [hl', Function.update_self, hpool, ← hl', hp]
    · dsimp only
      rw [Function.update_of_ne hl', hp]
  · obtain ⟨hne, hiopen⟩ := (open_resumed rfl i).mp hi
    dsimp only
    rw [Function.update_of_ne hne, Function.update_of_ne (hother i hne hiopen)]
    exact h.carried i hiopen
  · obtain ⟨hnei, hiopen⟩ := (open_resumed rfl i).mp hi
    obtain ⟨hnej, hjopen⟩ := (open_resumed rfl j).mp hj
    dsimp only at hlane
    rw [Function.update_of_ne hnei, Function.update_of_ne hnej] at hlane
    exact h.single i j hiopen hjopen hlane
  · have hold : i ∈ (s.lanes l).pending := by
      by_cases hl' : l = (s.jobs id).lane
      · dsimp only at hi
        rw [hl', Function.update_self, hpending] at hi
        rwa [hl']
      · dsimp only at hi
        rwa [Function.update_of_ne hl'] at hi
    obtain ⟨hlt, hlane⟩ := h.pending l i hold
    refine ⟨hlt, ?_⟩
    by_cases hi' : i = id
    · dsimp only
      rw [hi', Function.update_self]
      rwa [hi'] at hlane
    · dsimp only
      rwa [Function.update_of_ne hi']
  · obtain ⟨hne, hiopen⟩ := (open_resumed rfl i).mp hi
    dsimp only at hres ⊢
    rw [Function.update_of_ne hne] at hres ⊢
    rw [Function.update_of_ne (hother i hne hiopen)]
    exact h.waiting i hiopen hres
  · by_cases hl' : l = (s.jobs id).lane
    · obtain hidle | hgone := hfree
      · dsimp only at hb
        rw [hl', Function.update_self, hidle] at hb
        cases hb
      · exact absurd (hl' ▸ hl) (hgone p)
    · dsimp only at hb
      rw [Function.update_of_ne hl'] at hb
      obtain ⟨i, hi, hlane⟩ := h.busy p l ((hsub p).subset hl) hb
      have hne : i ≠ id := fun heq => hl' (heq ▸ hlane.symm)
      refine ⟨i, (open_resumed rfl i).mpr ⟨hne, hi⟩, ?_⟩
      dsimp only
      rwa [Function.update_of_ne hne]
  · by_cases hl' : l = (s.jobs id).lane
    · dsimp only at hl ⊢
      rw [hl', Function.update_self] at hl ⊢
      exact hexited hl
    · dsimp only at hl ⊢
      rw [Function.update_of_ne hl'] at hl ⊢
      exact h.exited l hl

/-- A retired lane is in no pool. -/
lemma Core.retired (h : Core pools s) (l : ℕ) (p : String) :
    l ∉ Function.update s.members (s.lanes l).pool ((s.members (s.lanes l).pool).erase l) p := by
  by_cases hp : p = (s.lanes l).pool
  · rw [hp, Function.update_self]
    exact (h.nodup _).not_mem_erase
  · rw [Function.update_of_ne hp]
    exact fun hl => hp (h.member p l hl).2.symm

lemma Core.resume (h : Core pools s) (id : ℕ) : Core pools (s.resume id) := by
  rw [State.resume.eq_def]
  split
  · rename_i c hresult hopen
    dsimp only
    have hne : (s.jobs id).result ≠ none := by rw [hresult]; exact Option.some_ne_none c
    split_ifs
    · exact h.release hopen hne rfl rfl (fun _ => rfl) (fun p => erase_members s _ _ p) (Or.inr (h.retired _))
    · exact h.release hopen hne rfl rfl (h.exited _) (fun p => List.Sublist.refl _) (Or.inl rfl)
  · exact h

lemma Core.resumes (h : Core pools s) (ids : List ℕ) : Core pools (ids.foldl State.resume s) := by
  induction ids generalizing s with
  | nil => exact h
  | cons id rest ih => exact ih (h.resume id)

lemma Core.drain (h : Core pools s) : Core pools s.drain := h.resumes _

end Resuming

section Calls

variable {p : String} {cfg : BrokerPoolConfig}

/-- The pool with one more lane, still idle. -/
def State.addLane (s : State) (p : String) : State :=
  { s with
    lanes := Function.update s.lanes s.spawned { Lane.spawned p with busy := false }
    spawned := s.spawned + 1
    members := Function.update s.members p (s.members p ++ [s.spawned]) }

lemma Core.add (h : Core pools s) (hcfg : pools.get? p = some cfg) (hroom : (s.members p).length < cfg.size) :
    Core pools (s.addLane p) := by
  have hnew : ∀ q, s.spawned ∉ s.members q := fun q hq => absurd (h.member q _ hq).1 (lt_irrefl _)
  have hmem : ∀ q l, l ∈ Function.update s.members p (s.members p ++ [s.spawned]) q →
      l ∈ s.members q ∨ l = s.spawned ∧ q = p := by
    intro q l hl
    by_cases hq : q = p
    · rw [hq, Function.update_self] at hl
      obtain hold | hlast := List.mem_append.mp hl
      · exact Or.inl (hq ▸ hold)
      · exact Or.inr ⟨List.mem_singleton.mp hlast, hq⟩
    · rw [Function.update_of_ne hq] at hl
      exact Or.inl hl
  refine ⟨fun q l hl => ?_, fun q => ?_, fun q cfg' hcfg' => ?_, fun id hopen => ?_, h.single, fun l id hid => ?_,
    fun id hopen hresult => ?_, fun q l hl hb => ?_, fun l hl => ?_⟩
  · obtain hold | ⟨rfl, rfl⟩ := hmem q l hl
    · obtain ⟨hlt, hp⟩ := h.member q l hold
      dsimp only [State.addLane]
      rw [Function.update_of_ne hlt.ne]
      exact ⟨hlt.trans (Nat.lt_succ_self _), hp⟩
    · dsimp only [State.addLane]
      rw [Function.update_self]
      exact ⟨Nat.lt_succ_self _, rfl⟩
  · by_cases hq : q = p
    · dsimp only [State.addLane]
      rw [hq, Function.update_self]
      exact List.nodup_append.mpr ⟨h.nodup p, List.nodup_singleton _, by
        rintro a ha b hb rfl
        exact hnew p (List.mem_singleton.mp hb ▸ ha)⟩
    · dsimp only [State.addLane]
      rw [Function.update_of_ne hq]
      exact h.nodup q
  · by_cases hq : q = p
    · rw [hq, hcfg] at hcfg'
      obtain rfl := Option.some.inj hcfg'
      dsimp only [State.addLane]
      rw [hq, Function.update_self, List.length_append]
      exact hroom
    · dsimp only [State.addLane]
      rw [Function.update_of_ne hq]
      exact h.size q cfg' hcfg'
  · obtain ⟨hid, hlane, hrest⟩ := h.carried id hopen
    dsimp only [State.addLane]
    rw [Function.update_of_ne hlane.ne]
    exact ⟨hid, hlane.trans (Nat.lt_succ_self _), hrest⟩
  · by_cases hl : l = s.spawned
    · dsimp only [State.addLane] at hid
      rw [hl, Function.update_self] at hid
      exact absurd hid List.not_mem_nil
    · dsimp only [State.addLane] at hid
      rw [Function.update_of_ne hl] at hid
      exact h.pending l id hid
  · have hlane := (h.carried id hopen).2.1
    dsimp only [State.addLane]
    rw [Function.update_of_ne hlane.ne]
    exact h.waiting id hopen hresult
  · obtain hold | ⟨rfl, rfl⟩ := hmem q l hl
    · have hlt := (h.member q l hold).1
      dsimp only [State.addLane] at hb
      rw [Function.update_of_ne hlt.ne] at hb
      exact h.busy q l hold hb
    · dsimp only [State.addLane] at hb
      rw [Function.update_self] at hb
      cases hb
  · by_cases hl' : l = s.spawned
    · dsimp only [State.addLane] at hl
      rw [hl', Function.update_self] at hl
      cases hl
    · dsimp only [State.addLane] at hl ⊢
      rw [Function.update_of_ne hl'] at hl ⊢
      exact h.exited l hl

variable {r : Option Settled} {w : Bool} {lane : Lane}

/-- An idle lane of a pool takes a call, which waits unless the handle is closed. -/
lemma Core.assign (h : Core pools s) (hmember : l ∈ s.members p) (hidle : (s.lanes l).busy = false)
    (hlane : lane = { s.lanes l with busy := true, pending := (s.lanes l).pending ++ [s.nextId] })
    (hr : r = none → (s.lanes l).closed = false) : Core pools { s with
      lanes := Function.update s.lanes l lane
      jobs := Function.update s.jobs s.nextId ⟨p, l, w, r, false, false⟩
      nextId := s.nextId + 1 } := by
  obtain ⟨hlt, hpool⟩ := h.member p l hmember
  have hold : ∀ i, i ≠ s.nextId → Open { s with
      lanes := Function.update s.lanes l lane
      jobs := Function.update s.jobs s.nextId ⟨p, l, w, r, false, false⟩
      nextId := s.nextId + 1 } i → Open s i := by
    intro i hi hopen
    rw [Open] at hopen
    dsimp only at hopen
    rwa [Function.update_of_ne hi] at hopen
  have helse : ∀ i, Open s i → i ≠ s.nextId ∧ (s.jobs i).lane ≠ l := by
    intro i hopen
    obtain ⟨hi, _, hbusy, _⟩ := h.carried i hopen
    refine ⟨hi.ne, ?_⟩
    rintro heq
    rw [heq, hidle] at hbusy
    cases hbusy
  refine ⟨fun q l' hl' => ?_, h.nodup, h.size, fun i hi => ?_, fun i j hi hj hsame => ?_, fun l' i hi => ?_,
    fun i hi hresult => ?_, fun q l' hl' hb => ?_, fun l' hl' => ?_⟩
  · obtain ⟨hlt', hp'⟩ := h.member q l' hl'
    refine ⟨hlt', ?_⟩
    by_cases heq : l' = l
    · dsimp only
      rw [heq, Function.update_self, hlane]
      rwa [heq] at hp'
    · dsimp only
      rwa [Function.update_of_ne heq]
  · by_cases hnew : i = s.nextId
    · dsimp only
      rw [hnew, Function.update_self, Function.update_self, hlane]
      exact ⟨Nat.lt_succ_self _, hlt, rfl, hpool⟩
    · obtain ⟨_, hne⟩ := helse i (hold i hnew hi)
      dsimp only
      rw [Function.update_of_ne hnew, Function.update_of_ne hne]
      obtain ⟨hi', hrest⟩ := h.carried i (hold i hnew hi)
      exact ⟨hi'.trans (Nat.lt_succ_self _), hrest⟩
  · dsimp only at hsame
    by_cases hni : i = s.nextId
    · by_cases hnj : j = s.nextId
      · rw [hni, hnj]
      · rw [hni, Function.update_self, Function.update_of_ne hnj] at hsame
        exact absurd hsame.symm (helse j (hold j hnj hj)).2
    · by_cases hnj : j = s.nextId
      · rw [hnj, Function.update_self, Function.update_of_ne hni] at hsame
        exact absurd hsame (helse i (hold i hni hi)).2
      · rw [Function.update_of_ne hni, Function.update_of_ne hnj] at hsame
        exact h.single i j (hold i hni hi) (hold j hnj hj) hsame
  · have hcases : i ∈ (s.lanes l').pending ∨ i = s.nextId ∧ l' = l := by
      by_cases heq : l' = l
      · dsimp only at hi
        rw [heq, Function.update_self, hlane] at hi
        obtain hin | hin := List.mem_append.mp hi
        · exact Or.inl (heq ▸ hin)
        · exact Or.inr ⟨List.mem_singleton.mp hin, heq⟩
      · dsimp only at hi
        rw [Function.update_of_ne heq] at hi
        exact Or.inl hi
    obtain hin | ⟨rfl, rfl⟩ := hcases
    · obtain ⟨hi', hlane'⟩ := h.pending l' i hin
      dsimp only
      rw [Function.update_of_ne hi'.ne]
      exact ⟨hi'.trans (Nat.lt_succ_self _), hlane'⟩
    · dsimp only
      rw [Function.update_self]
      exact ⟨Nat.lt_succ_self _, rfl⟩
  · dsimp only at hresult ⊢
    by_cases hnew : i = s.nextId
    · rw [hnew, Function.update_self] at hresult
      rw [hnew, Function.update_self, Function.update_self, hlane]
      exact ⟨List.mem_append_right _ (List.mem_singleton_self _), hr hresult⟩
    · rw [Function.update_of_ne hnew] at hresult ⊢
      rw [Function.update_of_ne (helse i (hold i hnew hi)).2]
      exact h.waiting i (hold i hnew hi) hresult
  · by_cases heq : l' = l
    · refine ⟨s.nextId, ?_, ?_⟩
      · rw [Open]
        dsimp only
        rw [Function.update_self]
      · dsimp only
        rw [Function.update_self, heq]
    · dsimp only at hb
      rw [Function.update_of_ne heq] at hb
      obtain ⟨i, hi, hlane'⟩ := h.busy q l' hl' hb
      obtain ⟨hne, _⟩ := helse i hi
      refine ⟨i, ?_, ?_⟩
      · rw [Open]
        dsimp only
        rw [Function.update_of_ne hne]
        exact hi
      · dsimp only
        rw [Function.update_of_ne hne, hlane']
  · by_cases heq : l' = l
    · dsimp only at hl' ⊢
      rw [heq, Function.update_self, hlane] at hl' ⊢
      exact h.exited l hl'
    · dsimp only at hl' ⊢
      rw [Function.update_of_ne heq] at hl' ⊢
      exact h.exited l' hl'

/-- What `dispatch` comes to on a lane that was taken. -/
lemma dispatch_eq (s : State) (p : String) (l : ℕ) : (s.setLane l { s.lanes l with busy := true }).dispatch p l =
    { s with
      lanes := Function.update s.lanes l
        { s.lanes l with busy := true, pending := (s.lanes l).pending ++ [s.nextId] }
      jobs := Function.update s.jobs s.nextId
        ⟨p, l, !(s.lanes l).closed, if (s.lanes l).closed then some (.failed l .unwritable) else none, false, false⟩
      nextId := s.nextId + 1 } := by
  rw [State.dispatch]
  simp only [lanes_setLane_self]
  split_ifs with hclosed
  · simp only [State.resolve, State.setLane, Function.update_idem, State.mk.injEq, true_and, and_true, hclosed]
    funext id
    by_cases hid : id = s.nextId
    · simp [hid, State.resolveJob]
    · simp [hid]
  · simp only [State.setLane, Function.update_idem, hclosed]

lemma Core.dispatch (h : Core pools s) (hmember : l ∈ s.members p) (hidle : (s.lanes l).busy = false) :
    Core pools ((s.setLane l { s.lanes l with busy := true }).dispatch p l) := by
  rw [dispatch_eq]
  refine h.assign hmember hidle rfl fun hr => ?_
  split_ifs at hr with hclosed
  exact Bool.eq_false_iff.mpr hclosed

/-- A new lane is an idle one that is taken at once. -/
lemma spawnLane_eq (s : State) (p : String) : s.spawnLane p =
    (s.addLane p).setLane s.spawned { (s.addLane p).lanes s.spawned with busy := true } := by
  simp [State.spawnLane, State.addLane, State.setLane, Lane.spawned]

lemma checkout_cases {size : ℕ} {t : State} (h : s.checkout p size = some (t, l)) :
    (l ∈ s.members p ∧ s.free l = true ∧ t = s.setLane l { s.lanes l with busy := true }) ∨
      ((s.members p).length < size ∧ l = s.spawned ∧ t = s.spawnLane p) := by
  rw [State.checkout] at h
  split at h
  · rename_i l' hfind
    obtain ⟨rfl, rfl⟩ := Prod.mk.inj (Option.some.inj h)
    exact Or.inl ⟨List.mem_of_find?_eq_some hfind, List.find?_some hfind, rfl⟩
  · split_ifs at h with hfull
    obtain ⟨rfl, rfl⟩ := Prod.mk.inj (Option.some.inj h)
    exact Or.inr ⟨Nat.not_le.mp hfull, rfl, rfl⟩

lemma free_idle (h : s.free l = true) : (s.lanes l).busy = false ∧ (s.lanes l).ready = true ∧
    (s.lanes l).malformed = 0 := by
  simpa [State.free, and_assoc] using h

lemma Core.call (h : Core pools s) (req : ProcessCallRequest) : Core pools (call pools s req) := by
  rw [Broker.call.eq_def]
  split
  · exact h
  · rename_i a hreq
    split
    · exact h
    · rename_i t l hcheckout
      obtain ⟨hmember, hfree, rfl⟩ | ⟨hroom, rfl, rfl⟩ := checkout_cases hcheckout
      · exact h.dispatch hmember (free_idle hfree).1
      · rw [spawnLane_eq]
        refine (h.add (checkRequest_pool hreq) hroom).dispatch ?_ ?_
        · simp [State.addLane]
        · simp [State.addLane]

end Calls

end VivimOmega.Broker

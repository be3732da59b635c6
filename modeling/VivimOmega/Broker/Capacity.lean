import VivimOmega.Broker.Law

/-! No lane is lost as long as idle children keep quiet and a child is ready before it answers. -/

namespace VivimOmega.Broker

open Library

variable {pools : Pools} {s t u : State} {l : ℕ}

/-- An idle lane that the next call can have. -/
def Fit (lane : Lane) : Prop := lane.ready = true ∧ lane.malformed = 0 ∧ lane.closed = false

def AllFit (s : State) : Prop := ∀ p, ∀ l ∈ s.members p, (s.lanes l).busy = false → Fit (s.lanes l)

/-- An idle child of a pool does not exit and says nothing malformed, unless that floods its lane at once; a busy one
that answers well has said that it is ready, unless its lane is flagged anyway. -/
def Behaved (s : State) : Event → Prop
  | .chunk l fs => l ∈ s.members (s.lanes l).pool →
    ((s.lanes l).busy = false → fs.count .noise = 0 ∨ malformedLimit < fs.count .noise) ∧
      ((s.lanes l).busy = true → (∃ id ∈ (s.lanes l).pending, Frame.returned id true ∈ fs) →
        (s.lanes l).ready = true ∨ .ready ∈ fs ∨ 0 < (s.lanes l).malformed ∨ 0 < fs.count .noise)
  | .exit l => l ∈ s.members (s.lanes l).pool → (s.lanes l).busy = true
  | _ => True

instance instDecidableBehaved (s : State) (e : Event) : Decidable (Behaved s e) := by
  cases e with
  | chunk l fs => exact inferInstanceAs (Decidable (_ → _))
  | exit l => exact inferInstanceAs (Decidable (_ → _))
  | call req => exact isTrue trivial
  | startTimeout l => exact isTrue trivial
  | deadline id => exact isTrue trivial
  | shutdown => exact isTrue trivial

section Frames

lemma frame_lanes (s : State) (f : Frame) {l' : ℕ} (h : l' ≠ l) : (s.frame l f).lanes l' = s.lanes l' := by
  cases f with
  | ready => exact Function.update_of_ne h ..
  | noise =>
    rw [State.frame, State.flagMalformed]
    split_ifs
    · simp [State.retire, State.settlePending, lanes_setLane, h]
    · exact Function.update_of_ne h ..
  | returned id ok =>
    rw [State.frame]
    split_ifs
    · exact Function.update_of_ne h ..
    · rfl

lemma frame_members (s : State) (f : Frame) (p : String) : ((s.frame l f).members p).Sublist (s.members p) := by
  cases f with
  | ready => exact List.Sublist.refl _
  | noise =>
    rw [State.frame, State.flagMalformed]
    split_ifs
    · exact erase_members _ _ l p
    · exact List.Sublist.refl _
  | returned id ok =>
    rw [State.frame]
    split_ifs <;> exact List.Sublist.refl _

/-- What a frame does to its own lane. -/
lemma frame_lane (s : State) (f : Frame) : ((s.frame l f).lanes l).busy = (s.lanes l).busy ∧
    (((s.frame l f).lanes l).ready = true ↔ (s.lanes l).ready = true ∨ f = .ready) ∧
    ((s.frame l f).lanes l).malformed = (s.lanes l).malformed + (if f = .noise then 1 else 0) ∧
    (f ≠ .noise → ((s.frame l f).lanes l).closed = (s.lanes l).closed) := by
  cases f with
  | ready => simp [State.frame]
  | noise =>
    rw [State.frame, State.flagMalformed]
    by_cases hlimit : malformedLimit < (s.lanes l).malformed + 1
    · simp [hlimit, State.retire, State.settlePending]
    · simp [hlimit]
  | returned id ok =>
    rw [State.frame]
    by_cases hid : id ∈ (s.lanes l).pending
    · simp [hid]
    · simp [hid]

lemma frame_floods (h : Core pools s) (hlimit : malformedLimit < (s.lanes l).malformed + 1) (p : String) :
    l ∉ (s.frame l .noise).members p := by
  rw [State.frame, State.flagMalformed, if_pos hlimit]
  have hflag : Core pools (s.setLane l { s.lanes l with malformed := (s.lanes l).malformed + 1 }) :=
    h.setLane rfl (fun _ hid => hid) (fun id hopen hlane hresult => hlane ▸ h.waiting id hopen hresult) Iff.rfl
      (h.exited l)
  exact (hflag.settlePending (l := l) .flooded).1.retired l p

variable (fs : List Frame)

lemma frames_lanes (s : State) {l' : ℕ} (h : l' ≠ l) : (fs.foldl (State.frame l) s).lanes l' = s.lanes l' := by
  induction fs generalizing s with
  | nil => rfl
  | cons f rest ih => exact (ih _).trans (frame_lanes s f h)

lemma frames_members (s : State) (p : String) : ((fs.foldl (State.frame l) s).members p).Sublist (s.members p) := by
  induction fs generalizing s with
  | nil => exact List.Sublist.refl _
  | cons f rest ih => exact (ih _).trans (frame_members s f p)

/-- What a chunk does to its own lane. -/
lemma frames_lane (s : State) : ((fs.foldl (State.frame l) s).lanes l).busy = (s.lanes l).busy ∧
    (((fs.foldl (State.frame l) s).lanes l).ready = true ↔ (s.lanes l).ready = true ∨ .ready ∈ fs) ∧
    ((fs.foldl (State.frame l) s).lanes l).malformed = (s.lanes l).malformed + fs.count .noise ∧
    (fs.count .noise = 0 → ((fs.foldl (State.frame l) s).lanes l).closed = (s.lanes l).closed) := by
  induction fs generalizing s with
  | nil => simp
  | cons f rest ih =>
    obtain ⟨hbusy, hready, hmalformed, hclosed⟩ := frame_lane (l := l) s f
    obtain ⟨hbusy', hready', hmalformed', hclosed'⟩ := ih (s.frame l f)
    have hcount : (f :: rest).count .noise = rest.count .noise + if f = .noise then 1 else 0 := by
      rw [List.count_cons]
      simp only [beq_iff_eq]
    rw [List.foldl_cons]
    refine ⟨hbusy'.trans hbusy, ?_, ?_, fun hzero => ?_⟩
    · rw [hready', hready, List.mem_cons, or_assoc, eq_comm (a := f)]
    · rw [hmalformed', hmalformed, hcount]
      omega
    · rw [hcount] at hzero
      have hf : f ≠ .noise := by
        rintro rfl
        simp at hzero
      exact (hclosed' (by omega)).trans (hclosed hf)

lemma frames_flood (h : Core pools s) (hnoise : 0 < fs.count .noise)
    (hlimit : malformedLimit < (s.lanes l).malformed + fs.count .noise) (p : String) :
    l ∉ (fs.foldl (State.frame l) s).members p := by
  induction fs generalizing s with
  | nil => simp at hnoise
  | cons f rest ih =>
    obtain ⟨_, _, hmalformed, _⟩ := frame_lane (l := l) s f
    have hcount : (f :: rest).count .noise = rest.count .noise + if f = .noise then 1 else 0 := by
      rw [List.count_cons]
      simp only [beq_iff_eq]
    rw [hcount] at hnoise hlimit
    by_cases hrest : 0 < rest.count .noise
    · refine ih (h.frame f) hrest ?_
      rw [hmalformed]
      omega
    · have hf : f = .noise := by
        by_contra hne
        rw [if_neg hne] at hnoise
        omega
      subst hf
      rw [if_pos rfl] at hlimit
      exact fun hmem => frame_floods h (by omega) p ((frames_members rest _ p).subset hmem)

end Frames

/-- What holds between two events. -/
structure Inv (pools : Pools) (s : State) : Prop where
  core : Core pools s
  quiet : Quiet s
  answered : ∀ id, 0 < id → id < s.nextId → (s.jobs id).resumed = true → (s.jobs id).result ≠ none
  expired : ∀ id, 0 < id → id < s.nextId → (s.jobs id).expired = true → (s.jobs id).result ≠ none
  first : 0 < s.nextId

section Steps

variable {e : Event}

lemma step_drain (h : (broker pools).step s e = some t) : ∃ u, handle pools s e = some u ∧ t = u.drain := by
  obtain ⟨u, hu, rfl⟩ := Option.map_eq_some_iff.mp h
  exact ⟨u, hu, rfl⟩

/-- A call that is due when an event was handled was resolved by that event, or is the call that came. -/
lemma due_handle (hinv : Inv pools s) (hu : handle pools s e = some u) {id : ℕ} (hdue : Due u id) (hid : id < s.nextId)
    (hopen : Open s id) : (u.jobs id).lane = (s.jobs id).lane ∧ (s.jobs id).result = none ∧
      ∃ c, (u.jobs id).result = some c ∧ ResolvedBy s id e c := by
  have hkept := settles_handle hinv.core hu id hid
  obtain hsame | ⟨hnone, c, hc, hhow⟩ := hkept.result
  · exact absurd ⟨hopen, hsame ▸ hdue.2⟩ (hinv.quiet id)
  · exact ⟨hkept.lane, hnone, c, hc, hhow⟩

/-- The state after a call that has its lane. -/
structure Dispatched (s u : State) (l : ℕ) : Prop where
  nextId : u.nextId = s.nextId + 1
  lane : (u.jobs s.nextId).lane = l
  written : (u.jobs s.nextId).written = !(u.lanes l).closed
  result : (u.jobs s.nextId).result = none ∨ (u.jobs s.nextId).result = some (.failed l .unwritable)
  resumed : (u.jobs s.nextId).resumed = false
  expired : (u.jobs s.nextId).expired = false
  busy : (u.lanes l).busy = true
  others : ∀ l', l' ≠ l → u.lanes l' = s.lanes l'
  members : ∀ p, ∀ l' ∈ u.members p, l' ∈ s.members p ∨ l' = l

lemma dispatched (v : State) (p : String) (l : ℕ) :
    Dispatched v ((v.setLane l { v.lanes l with busy := true }).dispatch p l) l := by
  rw [dispatch_eq]
  refine ⟨rfl, by simp, by simp, ?_, by simp, by simp, by simp, fun l' hl' => Function.update_of_ne hl' ..,
    fun p l' hl' => Or.inl hl'⟩
  cases hclosed : (v.lanes l).closed with
  | false => exact Or.inl (by simp)
  | true => exact Or.inr (by simp)

lemma lanes_dispatch (v : State) (p : String) (l : ℕ) :
    (((v.setLane l { v.lanes l with busy := true }).dispatch p l).lanes l).closed = (v.lanes l).closed ∧
      (((v.setLane l { v.lanes l with busy := true }).dispatch p l).lanes l).exited = (v.lanes l).exited := by
  rw [dispatch_eq]
  dsimp only
  rw [Function.update_self]
  exact ⟨rfl, rfl⟩

/-- What a call does: nothing, or it takes a free lane or a new one. -/
lemma call_cases (s : State) (req : ProcessCallRequest) : call pools s req = s ∨
    ∃ l, Dispatched s (call pools s req) l ∧ ((((call pools s req).lanes l).closed = (s.lanes l).closed ∧
      ((call pools s req).lanes l).exited = (s.lanes l).exited) ∨
        ((call pools s req).lanes l).closed = false ∧ ((call pools s req).lanes l).exited = false) := by
  cases hreq : checkRequest pools s.shutDown req with
  | error refusal =>
    rw [Broker.call, hreq]
    exact Or.inl rfl
  | ok a =>
    cases hcheckout : s.checkout a.pool a.cfg.size with
    | none =>
      rw [Broker.call, hreq]
      dsimp only
      rw [hcheckout]
      exact Or.inl rfl
    | some v =>
      obtain ⟨v, l⟩ := v
      have hcall : call pools s req = v.dispatch a.pool l := by
        rw [Broker.call, hreq]
        dsimp only
        rw [hcheckout]
      rw [hcall]
      refine Or.inr ⟨l, ?_⟩
      obtain ⟨_, _, rfl⟩ | ⟨_, rfl, rfl⟩ := checkout_cases hcheckout
      · exact ⟨dispatched s a.pool l, Or.inl (lanes_dispatch s a.pool l)⟩
      · rw [spawnLane_eq]
        have hnew : (s.addLane a.pool).lanes s.spawned = { Lane.spawned a.pool with busy := false } :=
          Function.update_self ..
        obtain ⟨hnext, hlane, hwritten, hresult, hresumed, hexpired, hbusy, hothers, hmembers⟩ :=
          dispatched (s.addLane a.pool) a.pool s.spawned
        obtain ⟨hclosed, hexited⟩ := lanes_dispatch (s.addLane a.pool) a.pool s.spawned
        refine ⟨⟨hnext, hlane, hwritten, hresult, hresumed, hexpired, hbusy, fun l' hl' => ?_, fun p l' hl' => ?_⟩,
          Or.inr ⟨hclosed.trans (congrArg Lane.closed hnew), hexited.trans (congrArg Lane.exited hnew)⟩⟩
        · exact (hothers l' hl').trans (Function.update_of_ne hl' ..)
        · obtain hadd | rfl := hmembers p l' hl'
          · rw [State.addLane] at hadd
            dsimp only at hadd
            by_cases hp : p = a.pool
            · rw [hp, Function.update_self] at hadd
              obtain hold | hlast := List.mem_append.mp hadd
              · exact Or.inl (hp ▸ hold)
              · exact Or.inr (List.mem_singleton.mp hlast)
            · rw [Function.update_of_ne hp] at hadd
              exact Or.inl hadd
          · exact Or.inr rfl

lemma frames_nextId (fs : List Frame) (s : State) (l : ℕ) : (fs.foldl (State.frame l) s).nextId = s.nextId := by
  induction fs generalizing s with
  | nil => rfl
  | cons f rest ih => exact (ih _).trans (frame_nextId s l f)

/-- Only a call that has its lane opens one. -/
lemma handle_nextId (hu : handle pools s e = some u) : u.nextId = s.nextId ∨ ∃ l, Dispatched s u l := by
  cases e with
  | call req =>
    obtain rfl := Option.some.inj hu
    obtain hsame | ⟨l, hcall, _⟩ := call_cases s req
    · rw [hsame]
      exact Or.inl rfl
    · exact Or.inr ⟨l, hcall⟩
  | chunk l fs =>
    rw [Broker.handle] at hu
    split_ifs at hu
    obtain rfl := Option.some.inj hu
    exact Or.inl (frames_nextId fs s l)
  | exit l =>
    rw [Broker.handle] at hu
    split_ifs at hu
    obtain rfl := Option.some.inj hu
    exact Or.inl rfl
  | startTimeout l =>
    rw [Broker.handle] at hu
    split_ifs at hu
    obtain rfl := Option.some.inj hu
    rw [State.startTimeout]
    split_ifs
    · exact Or.inl rfl
    · exact Or.inl rfl
  | deadline id =>
    rw [Broker.handle] at hu
    split_ifs at hu
    obtain rfl := Option.some.inj hu
    exact Or.inl rfl
  | shutdown =>
    obtain rfl := Option.some.inj hu
    exact Or.inl rfl

lemma Inv.step (hinv : Inv pools s) (h : (broker pools).step s e = some t) : Inv pools t := by
  obtain ⟨u, hu, rfl⟩ := step_drain h
  have hcore := hinv.core.handle hu
  have hkept := settles_handle hinv.core hu
  have hnext : u.drain.nextId = u.nextId := (resumes_counts _).1
  have hgrown := handle_nextId hu
  have hold : ∀ id, id < u.nextId → id < s.nextId ∨ (u.jobs id).resumed = false ∧ (u.jobs id).expired = false := by
    intro id hid
    obtain hsame | ⟨l, hcall⟩ := hgrown
    · exact Or.inl (hsame ▸ hid)
    · obtain hlt | rfl := Nat.lt_succ_iff_lt_or_eq.mp (hcall.nextId ▸ hid)
      · exact Or.inl hlt
      · exact Or.inr ⟨hcall.resumed, hcall.expired⟩
  have hresult : ∀ id, (u.drain.jobs id).result = (u.jobs id).result := fun id => (resumes_job _ id).2.2.2.1
  have hexpired : ∀ id, (u.drain.jobs id).expired = (u.jobs id).expired := fun id => (resumes_job _ id).2.2.2.2
  refine ⟨hcore.drain, quiet_drain hcore, fun id hpos hid hresumed => ?_, fun id hpos hid hexp => ?_, ?_⟩
  · rw [hresult]
    obtain hmark | hres := resumes_resumed _ id hresumed
    · obtain hlt | ⟨hfalse, _⟩ := hold id (hnext ▸ hid)
      · rw [(hkept id hlt).resumed] at hmark
        exact (hkept id hlt).answered (hinv.answered id hpos hlt hmark)
      · rw [hfalse] at hmark
        cases hmark
    · exact hres
  · rw [hresult]
    rw [hexpired] at hexp
    obtain hlt | ⟨_, hfalse⟩ := hold id (hnext ▸ hid)
    · obtain hexp' | hres := (hkept id hlt).expired hexp
      · exact (hkept id hlt).answered (hinv.expired id hpos hlt hexp')
      · exact hres
    · rw [hfalse] at hexp
      cases hexp
  · rw [hnext]
    have hfirst := hinv.first
    obtain hsame | ⟨l, hcall⟩ := hgrown
    · omega
    · have hsucc := hcall.nextId
      omega

lemma inv_start : Inv pools start where
  core := ⟨fun p l hl => absurd hl List.not_mem_nil, fun p => List.nodup_nil, fun p cfg _ => Nat.zero_le _,
    fun id hid => (by cases hid), fun i j hi => (by cases hi), fun l id hid => absurd hid List.not_mem_nil,
    fun id hid => (by cases hid), fun p l hl => absurd hl List.not_mem_nil, fun l hl => (by cases hl)⟩
  quiet := fun id hdue => hdue.2 rfl
  answered := fun id hpos hid => by
    have hone : id < 1 := hid
    omega
  expired := fun id hpos hid => by
    have hone : id < 1 := hid
    omega
  first := Nat.one_pos

variable {ok : State → Event → Prop}

lemma inv_reachable (h : (broker pools).Reachable ok s) : Inv pools s := by
  refine h.invariant ?_ ?_
  · rintro s rfl
    exact inv_start
  · exact fun s e t _ hinv _ hstep => hinv.step hstep

/-- A due call keeps its lane: out of its pool, or idle and as it was. -/
lemma fit_of_due (hcore : Core pools u) {p : String} (hmember : l ∈ u.drain.members p) {id : ℕ} (hdue : Due u id)
    (hlane : (u.jobs id).lane = l) : (∃ c, (u.jobs id).result = some c ∧ State.isOk c = true) ∧
      (u.lanes l).malformed = 0 ∧ u.drain.lanes l = { u.lanes l with busy := false } := by
  obtain hgone | hfree := resumes_due hcore (List.mem_range.mpr (hcore.carried id hdue.1).1) hdue hlane
  · exact absurd hmember (hgone p)
  · exact hfree

lemma open_handle (hinv : Inv pools s) (hu : handle pools s e = some u) {id : ℕ} (hid : id < s.nextId)
    (hopen : Open u id) : Open s id := by
  rw [Open, (settles_handle hinv.core hu id hid).resumed] at hopen
  exact hopen

lemma AllFit.step (hinv : Inv pools s) (hfit : AllFit s) (hok : Behaved s e)
    (h : (broker pools).step s e = some t) : AllFit t := by
  obtain ⟨u, hu, rfl⟩ := step_drain h
  have hcore := hinv.core.handle hu
  intro p l hl hidle
  have hlu := (drain_members u p).subset hl
  -- a lane that no due call touches is what the event made of it
  obtain ⟨hnone, hsame⟩ | ⟨id, hdue, hlane, _⟩ := drain_lane hcore l
  · rw [hsame] at hidle ⊢
    cases e with
    | call req =>
      obtain rfl := Option.some.inj hu
      obtain hs | ⟨l', hcall, _⟩ := call_cases s req
      · rw [hs] at hlu hidle ⊢
        exact hfit p l hlu hidle
      · obtain rfl | hne := eq_or_ne l l'
        · rw [hcall.busy] at hidle
          cases hidle
        · rw [hcall.others l hne] at hidle ⊢
          exact hfit p l ((hcall.members p l hlu).resolve_right hne) hidle
    | chunk l' fs =>
      rw [Broker.handle] at hu
      split_ifs at hu
      obtain rfl := Option.some.inj hu
      have hls := (frames_members fs s p).subset hlu
      obtain rfl | hne := eq_or_ne l l'
      · obtain ⟨hbusy, hready, hmalformed, hclosed⟩ := frames_lane (l := l) fs s
        rw [hbusy] at hidle
        obtain ⟨hfready, hfmalformed, hfclosed⟩ := hfit p l hls hidle
        have hpool := (hinv.core.member p l hls).2
        obtain hquiet | hflood := (hok (hpool ▸ hls)).1 hidle
        · exact ⟨hready.mpr (Or.inl hfready), by rw [hmalformed, hfmalformed, hquiet], (hclosed hquiet).trans hfclosed⟩
        · exact absurd hlu (frames_flood fs hinv.core (by omega) (by omega) p)
      · rw [frames_lanes fs s hne] at hidle ⊢
        exact hfit p l hls hidle
    | exit l' =>
      rw [Broker.handle] at hu
      split_ifs at hu
      obtain rfl := Option.some.inj hu
      obtain rfl | hne := eq_or_ne l l'
      · have hbusy := hok ((hinv.core.member p l hlu).2.symm ▸ hlu)
        simp [State.exit, State.settlePending, hbusy] at hidle
      · simp only [State.exit, State.settlePending, lanes_setLane, if_neg hne, resolve_lanes] at hidle ⊢
        exact hfit p l hlu hidle
    | startTimeout l' =>
      rw [Broker.handle] at hu
      split_ifs at hu
      obtain rfl := Option.some.inj hu
      rw [State.startTimeout] at hlu hidle ⊢
      obtain rfl | hne := eq_or_ne l l'
      · split_ifs at hlu hidle ⊢ with hready
        · simp only [lanes_setLane_self] at hidle ⊢
          exact hfit p l hlu hidle
        · have hdisarmed : Core pools (s.setLane l { s.lanes l with armed := false }) :=
            hinv.core.setLane rfl (fun _ hid => hid)
              (fun id hopen hlane hresult => hlane ▸ hinv.core.waiting id hopen hresult) Iff.rfl (hinv.core.exited l)
          exact absurd hlu ((hdisarmed.settlePending (l := l) .notReady).1.retired l p)
      · split_ifs at hlu hidle ⊢
        · simp only [lanes_setLane, if_neg hne] at hidle ⊢
          exact hfit p l hlu hidle
        · have hls : l ∈ s.members p := (erase_members _ _ l' p).subset hlu
          simp only [State.retire, State.settlePending, lanes_setLane, if_neg hne, resolve_lanes] at hidle ⊢
          exact hfit p l hls hidle
    | deadline id =>
      rw [Broker.handle] at hu
      split_ifs at hu
      obtain rfl := Option.some.inj hu
      exact hfit p l hlu hidle
    | shutdown =>
      obtain rfl := Option.some.inj hu
      exact absurd hlu List.not_mem_nil
  -- a call that comes back well leaves a lane that is clean, and the child was ready before it answered
  · obtain ⟨⟨c, hc, hok'⟩, hclean, hfree⟩ := fit_of_due hcore hl hdue hlane
    by_cases hid : id < s.nextId
    · have hopen := open_handle hinv hu hid hdue.1
      obtain ⟨hkept, hnone, d, hd, hby⟩ := due_handle hinv hu hdue hid hopen
      obtain rfl := Option.some.inj (hc.symm.trans hd)
      have hwaiting := hinv.core.waiting id hopen hnone
      have hbusy := (hinv.core.carried id hopen).2.2.1
      rw [← hkept, hlane] at hwaiting hbusy
      cases c with
      | deadline => cases hok'
      | failed l' failure => cases hok'
      | returned l' i ok =>
        obtain rfl : ok = true := hok'
        cases e with
        | chunk l₁ fs =>
          obtain ⟨rfl, rfl, hlane₁, hin⟩ := hby
          rw [← hkept, hlane] at hlane₁
          subst hlane₁
          rw [Broker.handle] at hu
          split_ifs at hu
          obtain rfl := Option.some.inj hu
          have hls := (frames_members fs s p).subset hlu
          obtain ⟨_, hready, hmalformed, hclosed⟩ := frames_lane (l := l) fs s
          rw [hfree]
          have hzero : fs.count .noise = 0 := by omega
          refine ⟨hready.mpr ?_, hclean, (hclosed hzero).trans hwaiting.2⟩
          obtain h1 | h2 | h3 | h4 := (hok ((hinv.core.member p l hls).2.symm ▸ hls)).2 hbusy ⟨i, hwaiting.1, hin⟩
          · exact Or.inl h1
          · exact Or.inr h2
          · omega
          · omega
        | _ => exact hby.elim
    · obtain hsucc | ⟨l', hcall⟩ := handle_nextId hu
      · exact absurd (hsucc ▸ (hcore.carried id hdue.1).1) hid
      · have hlast : id = s.nextId := by
          have hlt := (hcore.carried id hdue.1).1
          have hsucc := hcall.nextId
          omega
        subst hlast
        obtain hres | hres := hcall.result
        · exact absurd hres hdue.2
        · rw [hres] at hc
          obtain rfl := Option.some.inj hc
          cases hok'

lemma fit_reachable (h : (broker pools).Reachable Behaved s) : AllFit s := by
  suffices hh : Inv pools s ∧ AllFit s from hh.2
  refine h.invariant (P := fun s => Inv pools s ∧ AllFit s) ?_ ?_
  · rintro s rfl
    exact ⟨inv_start, fun p l hl => absurd hl List.not_mem_nil⟩
  · exact fun s e t _ ⟨hinv, hfit⟩ hok hstep => ⟨hinv.step hstep, hfit.step hinv hok hstep⟩

end Steps

/-- The lane law in a state: how many lanes and calls there are, what the next event may do to a call, and that a call
finds a lane where its pool carries none. -/
structure LaneLaw (pools : Pools) (s : State) : Prop where
  bounded : ∀ p cfg, pools.get? p = some cfg → (s.members p).length ≤ cfg.size
  single : ∀ i j, Open s i → Open s j → (s.jobs i).lane = (s.jobs j).lane → i = j
  answered : ∀ id, 0 < id → id < s.nextId → (¬ Open s id ↔ (s.jobs id).result ≠ none)
  inTime : ∀ id, 0 < id → id < s.nextId → (s.jobs id).expired = true → (s.jobs id).result ≠ none
  settles : ∀ e t, (broker pools).step s e = some t → ∀ id, id < s.nextId → (t.jobs id).lane = (s.jobs id).lane ∧
    ((t.jobs id).result = (s.jobs id).result ∨
      (s.jobs id).result = none ∧ ∃ c, (t.jobs id).result = some c ∧ ResolvedBy s id e c)
  writes : ∀ e t, (broker pools).step s e = some t → s.nextId < t.nextId → (t.jobs s.nextId).written = true →
    (t.lanes (t.jobs s.nextId).lane).exited = false
  capacity : ∀ req a, checkRequest pools s.shutDown req = .ok a → (∀ id, Open s id → (s.jobs id).pool ≠ a.pool) →
    ∃ t l, s.checkout a.pool a.cfg.size = some (t, l) ∧
      (l ∈ s.members a.pool ∧ (s.lanes l).closed = false ∨ l = s.spawned)

section Law

lemma Inv.settles (hinv : Inv pools s) {e : Event} (h : (broker pools).step s e = some t) {id : ℕ}
    (hid : id < s.nextId) : (t.jobs id).lane = (s.jobs id).lane ∧ ((t.jobs id).result = (s.jobs id).result ∨
      (s.jobs id).result = none ∧ ∃ c, (t.jobs id).result = some c ∧ ResolvedBy s id e c) := by
  obtain ⟨u, hu, rfl⟩ := step_drain h
  have hkept := settles_handle hinv.core hu id hid
  obtain ⟨hlane, _, _, hresult, _⟩ := resumes_job (s := u) (List.range u.nextId) id
  rw [State.drain, hlane, hresult]
  exact ⟨hkept.lane, hkept.result⟩

/-- What is written goes to a child that has not exited. -/
lemma Inv.writes (hinv : Inv pools s) {e : Event} (h : (broker pools).step s e = some t) (hnew : s.nextId < t.nextId)
    (hwritten : (t.jobs s.nextId).written = true) : (t.lanes (t.jobs s.nextId).lane).exited = false := by
  obtain ⟨u, hu, rfl⟩ := step_drain h
  have hcore := hinv.core.handle hu
  obtain ⟨hlane, _, hmark, _, _⟩ := resumes_job (s := u) (List.range u.nextId) s.nextId
  rw [State.drain] at hwritten ⊢
  rw [hmark] at hwritten
  rw [hlane]
  obtain hsucc | ⟨l, hcall⟩ := handle_nextId hu
  · rw [State.drain, (resumes_counts _).1, hsucc] at hnew
    omega
  · rw [hcall.written, Bool.not_eq_true'] at hwritten
    rw [hcall.lane, resumes_exited]
    by_contra hexited
    rw [hcore.exited l (by simpa using hexited)] at hwritten
    cases hwritten

lemma AllFit.capacity (hinv : Inv pools s) (hfit : AllFit s) {a : Admitted} (ha : pools.get? a.pool = some a.cfg)
    (hnone : ∀ id, Open s id → (s.jobs id).pool ≠ a.pool) : ∃ t l, s.checkout a.pool a.cfg.size = some (t, l) ∧
      (l ∈ s.members a.pool ∧ (s.lanes l).closed = false ∨ l = s.spawned) := by
  have hfree : ∀ l ∈ s.members a.pool, s.free l = true := by
    intro l hl
    have hidle : (s.lanes l).busy = false := by
      by_contra hbusy
      obtain ⟨id, hopen, hlane⟩ := hinv.core.busy a.pool l hl (by simpa using hbusy)
      have hpool := (hinv.core.carried id hopen).2.2.2
      rw [hlane, (hinv.core.member a.pool l hl).2] at hpool
      exact hnone id hopen hpool.symm
    obtain ⟨hready, hclean, _⟩ := hfit a.pool l hl hidle
    simp [State.free, hidle, hready, hclean]
  rw [State.checkout]
  cases hmembers : s.members a.pool with
  | nil =>
    have hpos := a.cfg.size_pos
    refine ⟨s.spawnLane a.pool, s.spawned, ?_, Or.inr rfl⟩
    simp only [List.find?_nil, List.length_nil]
    rw [if_neg (by omega)]
  | cons l rest =>
    have hl : l ∈ s.members a.pool := by simp [hmembers]
    rw [List.find?_cons_of_pos (hfree l hl)]
    exact ⟨_, l, rfl, Or.inl ⟨List.mem_cons_self, (hfit a.pool l hl (free_idle (hfree l hl)).1).2.2⟩⟩

end Law

/-- In every run whose children behave, the lane law holds in every state. -/
theorem lane_law (h : (broker pools).Reachable Behaved s) : LaneLaw pools s := by
  have hinv : Inv pools s := inv_reachable h
  refine ⟨hinv.core.size, hinv.core.single, fun id hpos hid => ?_, hinv.expired, fun e t ht id hid => hinv.settles ht hid,
    fun e t ht => hinv.writes ht, fun req a hreq hnone =>
      (fit_reachable h).capacity hinv (checkRequest_pool hreq) hnone⟩
  constructor
  · intro hclosed
    exact hinv.answered id hpos hid (by simpa [Open] using hclosed)
  · exact fun hresult hopen => hinv.quiet id ⟨hopen, hresult⟩

namespace Sample

lemma cmd_ne : ["node", "shim.mjs"] ≠ [] := List.cons_ne_nil _ _

lemma size_bounds : ∀ n ∈ (none : Option ℕ), 1 ≤ n ∧ n ≤ 4 := by simp

def pool : BrokerPoolConfig where
  id := "echo"
  cmd := ["node", "shim.mjs"]
  poolSize := none
  ops := none
  startTimeoutMs := none
  cmd_ne := cmd_ne
  size_bounds := size_bounds

def declared : Pools := OrderedMap.empty.set "echo" pool

def say : ProcessCallRequest := ⟨.str "echo", .str "echo.say", .undefined⟩

/-- A call that its lane answers well, as the child was ready. -/
def answered : List Event := [.call say, .chunk 0 [.ready, .returned 1 true]]

end Sample

theorem lane_law_answered : ∃ s, (broker Sample.declared).Reachable Behaved s ∧ LaneLaw Sample.declared s := by
  have hrun : ((broker Sample.declared).exec Behaved start Sample.answered).map
      (fun s => decide (s.members "echo" = [0])) = some true := by decide
  obtain ⟨s, hs, _⟩ := System.exec_spec rfl hrun
  exact ⟨s, hs, lane_law hs⟩

/-- A stray line of an idle child flags its lane for good: the pool refuses every call from then on. -/
theorem capacity_lost : ¬ ∀ pools s, (broker pools).Reachable System.free s → LaneLaw pools s := by
  intro hall
  have hrun : ((broker Sample.declared).exec System.free start (Sample.answered ++ [.chunk 0 [.noise]])).map
      (fun s => decide (s.members "echo" = [0] ∧ (s.lanes 0).malformed = 1 ∧ s.shutDown = false ∧
        (s.jobs 0).resumed = true ∧ (s.jobs 1).resumed = true ∧ s.nextId = 2)) = some true := by decide
  obtain ⟨s, hs, hstate⟩ := System.exec_spec rfl hrun
  obtain ⟨hmembers, hflag, hup, hzero, hone, hnext⟩ := of_decide_eq_true hstate
  obtain ⟨t, l, hcheckout, _⟩ := (hall Sample.declared s hs).capacity Sample.say ⟨Sample.pool, "echo", "echo.say", 10000⟩
    (by rw [hup]; rfl) fun id hopen => by
      have hid := ((inv_reachable hs).core.carried id hopen).1
      obtain rfl | rfl : id = 0 ∨ id = 1 := by omega
      · exact absurd hopen (by simp [Open, hzero])
      · exact absurd hopen (by simp [Open, hone])
  have hfree : s.free 0 = false := by simp [State.free, hflag]
  rw [State.checkout] at hcheckout
  dsimp only at hcheckout
  simp [hmembers, hfree, BrokerPoolConfig.size, Sample.pool] at hcheckout

end VivimOmega.Broker

import VivimOmega.Host.Turns

/-! On-demand spawns: the single flight of an id, from its start to the continuation of its
promise. -/

namespace VivimOmega.Host

open Library Contracts

def SpawnPhase.Over : SpawnPhase → Prop
  | .over _ => True
  | _ => False

/-- What the tables of the spawner say about each other. -/
structure Flighted (S : Spawner) (K : OrderedMap String CompartmentHandle) : Prop where
  numbered : ∀ n a, S.attempts.get? n = some a → n < S.attemptSeq
  sourced : ∀ n a, S.attempts.get? n = some a → a.source.entry.id = a.id
  entries : ∀ id d, S.dormant.get? id = some d → d.entry.id = id
  spawns : ∀ n a, S.attempts.get? n = some a → S.onDemandSpawn = true
  aloft : ∀ n a, S.attempts.get? n = some a → ¬ a.phase.Over →
    S.spawning.get? a.id = some n ∧ S.dormant.has a.id = true
  flown : ∀ id n, S.spawning.get? id = some n →
    ∃ a, S.attempts.get? n = some a ∧ a.id = id ∧ ¬ a.phase.Over
  ordered : ∀ m n a b, S.attempts.get? m = some a → S.attempts.get? n = some b → a.id = b.id →
    m < n → a.phase.Over
  absent : ∀ n a, S.attempts.get? n = some a → a.phase = .checkout → K.has a.id = false
  present : ∀ n a, S.attempts.get? n = some a → a.phase = .ready → K.has a.id = true
  waits : ∀ id w, S.readyWaiters.get? id = some w →
    ∃ a, S.attempts.get? w.attempt = some a ∧ a.id = id ∧ a.phase = .ready

namespace Flighted

variable {S : Spawner} {K K' : OrderedMap String CompartmentHandle} {n : ℕ} {a : SpawnAttempt}

lemma empty (onDemandSpawn : Bool) : Flighted { onDemandSpawn } K := by
  refine ⟨?_, ?_, ?_, ?_, ?_, ?_, ?_, ?_, ?_, ?_⟩ <;> simp

/-- The only attempt of an id that is not over is the one its flight names. -/
lemma unique (h : Flighted S K) {id : String} (hn : S.spawning.get? id = some n) {m : ℕ}
    (ha : S.attempts.get? m = some a) (hid : a.id = id) (hlive : ¬ a.phase.Over) : m = n := by
  have hm := (h.aloft m a ha hlive).1
  rw [hid, hn] at hm
  exact (Option.some.inj hm).symm

lemma housing (h : Flighted S K) (hgrow : ∀ id, K.has id = true → K'.has id = true)
    (hnew : ∀ id, K'.has id = true → K.has id = true ∨ S.spawning.has id = false) :
    Flighted S K' := by
  refine ⟨h.numbered, h.sourced, h.entries, h.spawns, h.aloft, h.flown, h.ordered, ?_, ?_, h.waits⟩
  · intro n a ha hp
    have hlive : ¬ a.phase.Over := by simp [hp, SpawnPhase.Over]
    have hspawning := OrderedMap.has_of_get? (h.aloft n a ha hlive).1
    by_contra hhas
    rcases hnew a.id (by simpa using hhas) with hold | hfree
    · rw [h.absent n a ha hp] at hold
      cases hold
    · rw [hspawning] at hfree
      cases hfree
  · exact fun n a ha hp => hgrow _ (h.present n a ha hp)

lemma registerDormant (h : Flighted S K) (d : DormantEntry) :
    Flighted { S with dormant := S.dormant.set d.entry.id d } K := by
  refine ⟨h.numbered, h.sourced, ?_, h.spawns, ?_, h.flown, h.ordered, h.absent, h.present, h.waits⟩
  · intro id d' hd
    rw [OrderedMap.get?_set] at hd
    split_ifs at hd with hid
    · cases hd
      exact hid.symm
    · exact h.entries id d' hd
  · intro n a ha hlive
    obtain ⟨hspawning, hdormant⟩ := h.aloft n a ha hlive
    refine ⟨hspawning, ?_⟩
    rw [OrderedMap.has_set, hdormant, Bool.or_true]

/-- The promise of an attempt settles; nobody waits for it to be ready any more. -/
lemma settle (h : Flighted S K) (ha : S.attempts.get? n = some a) (hlive : ¬ a.phase.Over)
    {err : Option String} {A : OrderedMap ℕ SpawnAttempt} {W : OrderedMap String ReadyWaiter}
    (hA : ∀ k, A.get? k = if k = n then some { a with phase := .settled err } else S.attempts.get? k)
    (hW : ∀ id w, W.get? id = some w → S.readyWaiters.get? id = some w ∧ w.attempt ≠ n) :
    Flighted { S with attempts := A, readyWaiters := W } K := by
  have hcases : ∀ k b, A.get? k = some b →
      ∃ b', S.attempts.get? k = some b' ∧ b'.id = b.id ∧ b'.source = b.source ∧
        (b.phase = b'.phase ∨ (k = n ∧ b.phase = .settled err)) := by
    intro k b hb
    rw [hA] at hb
    split_ifs at hb with hk
    · cases hb
      exact ⟨a, hk ▸ ha, rfl, rfl, .inr ⟨hk, rfl⟩⟩
    · exact ⟨b, hb, rfl, rfl, .inl rfl⟩
  have hover : ∀ (k : ℕ) (b b' : SpawnAttempt), S.attempts.get? k = some b' →
      (b.phase = b'.phase ∨ (k = n ∧ b.phase = .settled err)) → ¬ b.phase.Over → ¬ b'.phase.Over := by
    rintro k b b' hb' (hp | ⟨rfl, _⟩) hnot
    · exact hp ▸ hnot
    · rw [ha] at hb'
      cases hb'
      exact hlive
  refine ⟨?_, ?_, h.entries, ?_, ?_, ?_, ?_, ?_, ?_, ?_⟩
  · intro k b hb
    obtain ⟨b', hb', _⟩ := hcases k b hb
    exact h.numbered k b' hb'
  · intro k b hb
    obtain ⟨b', hb', hid, hsource, _⟩ := hcases k b hb
    rw [← hid, ← hsource]
    exact h.sourced k b' hb'
  · intro k b hb
    obtain ⟨b', hb', _⟩ := hcases k b hb
    exact h.spawns k b' hb'
  · intro k b hb hnot
    obtain ⟨b', hb', hid, _, hp⟩ := hcases k b hb
    rw [← hid]
    exact h.aloft k b' hb' (hover k b b' hb' hp hnot)
  · intro id k hk
    obtain ⟨b, hb, hid, hnot⟩ := h.flown id k hk
    have hget := hA k
    split_ifs at hget with hkn
    · subst hkn
      rw [ha] at hb
      cases hb
      exact ⟨_, hget, hid, by simp [SpawnPhase.Over]⟩
    · exact ⟨b, hget.trans hb, hid, hnot⟩
  · intro k m b b₂ hb hb₂ hids hlt
    obtain ⟨b', hb', hid, _, hp⟩ := hcases k b hb
    obtain ⟨b₂', hb₂', hid₂, _⟩ := hcases m b₂ hb₂
    have hold := h.ordered k m b' b₂' hb' hb₂' (hid.trans (hids.trans hid₂.symm)) hlt
    by_contra hnot
    exact hover k b b' hb' hp hnot hold
  · intro k b hb hphase
    obtain ⟨b', hb', hid, _, hp | ⟨_, hp⟩⟩ := hcases k b hb
    · rw [← hid]
      exact h.absent k b' hb' (hp ▸ hphase)
    · rw [hp] at hphase
      cases hphase
  · intro k b hb hphase
    obtain ⟨b', hb', hid, _, hp | ⟨_, hp⟩⟩ := hcases k b hb
    · rw [← hid]
      exact h.present k b' hb' (hp ▸ hphase)
    · rw [hp] at hphase
      cases hphase
  · intro id w hw
    obtain ⟨hw', hne⟩ := hW id w hw
    obtain ⟨b, hb, hid, hp⟩ := h.waits id w hw'
    exact ⟨b, by rw [hA, if_neg hne, hb], hid, hp⟩

/-- The continuation of a settled flight has run. -/
lemma land (h : Flighted S K) (ha : S.attempts.get? n = some a) {err : Option String}
    (hp : a.phase = .settled err) {A : OrderedMap ℕ SpawnAttempt}
    (hA : ∀ k, A.get? k = if k = n then some { a with phase := .over err } else S.attempts.get? k) :
    Flighted { S with
      dormant := if err.isNone then S.dormant.delete a.id else S.dormant
      spawning := S.spawning.delete a.id
      attempts := A } K := by
  have hlive : ¬ a.phase.Over := by simp [hp, SpawnPhase.Over]
  have hflight := (h.aloft n a ha hlive).1
  have hcases : ∀ k b, A.get? k = some b →
      (k = n ∧ b = { a with phase := .over err }) ∨ (k ≠ n ∧ S.attempts.get? k = some b) := by
    intro k b hb
    rw [hA] at hb
    split_ifs at hb with hk
    · exact .inl ⟨hk, (Option.some.inj hb).symm⟩
    · exact .inr ⟨hk, hb⟩
  have hother : ∀ k b, k ≠ n → S.attempts.get? k = some b → ¬ b.phase.Over → b.id ≠ a.id :=
    fun k b hk hb hnot hid => hk (h.unique hflight hb hid hnot)
  refine ⟨?_, ?_, ?_, ?_, ?_, ?_, ?_, ?_, ?_, ?_⟩
  · intro k b hb
    rcases hcases k b hb with ⟨rfl, _⟩ | ⟨_, hb'⟩
    · exact h.numbered _ a ha
    · exact h.numbered k b hb'
  · intro k b hb
    rcases hcases k b hb with ⟨_, rfl⟩ | ⟨_, hb'⟩
    · exact h.sourced n a ha
    · exact h.sourced k b hb'
  · intro id d hd
    dsimp only at hd
    split_ifs at hd
    · rw [OrderedMap.get?_delete] at hd
      split_ifs at hd
      exact h.entries id d hd
    · exact h.entries id d hd
  · intro k b hb
    exact h.spawns n a ha
  · intro k b hb hnot
    rcases hcases k b hb with ⟨_, rfl⟩ | ⟨hk, hb'⟩
    · exact absurd trivial hnot
    · obtain ⟨hspawning, hdormant⟩ := h.aloft k b hb' hnot
      have hid := hother k b hk hb' hnot
      refine ⟨by rw [OrderedMap.get?_delete_of_ne _ hid, hspawning], ?_⟩
      dsimp only
      split_ifs
      · simp [hdormant, hid]
      · exact hdormant
  · intro id k hk
    rw [OrderedMap.get?_delete] at hk
    split_ifs at hk with hid
    obtain ⟨b, hb, hbid, hnot⟩ := h.flown id k hk
    have hkn : k ≠ n := by
      rintro rfl
      rw [ha] at hb
      cases hb
      exact hid hbid.symm
    exact ⟨b, by rw [hA, if_neg hkn, hb], hbid, hnot⟩
  · intro k m b b₂ hb hb₂ hids hlt
    rcases hcases k b hb with ⟨_, rfl⟩ | ⟨_, hb'⟩
    · trivial
    · rcases hcases m b₂ hb₂ with ⟨rfl, rfl⟩ | ⟨_, hb₂'⟩
      · exact h.ordered k m b a hb' ha hids hlt
      · exact h.ordered k m b b₂ hb' hb₂' hids hlt
  · intro k b hb hphase
    rcases hcases k b hb with ⟨_, rfl⟩ | ⟨_, hb'⟩
    · cases hphase
    · exact h.absent k b hb' hphase
  · intro k b hb hphase
    rcases hcases k b hb with ⟨_, rfl⟩ | ⟨_, hb'⟩
    · cases hphase
    · exact h.present k b hb' hphase
  · intro id w hw
    obtain ⟨b, hb, hid, hready⟩ := h.waits id w hw
    have hkn : w.attempt ≠ n := by
      intro hwn
      rw [hwn, ha] at hb
      cases hb
      rw [hp] at hready
      cases hready
    exact ⟨b, by rw [hA, if_neg hkn, hb], hid, hready⟩

/-- A first touch starts an attempt of its own. -/
lemma startAttempt (h : Flighted S K) {id : String} {d : DormantEntry} (hhas : K.has id = false)
    (hd : S.dormant.get? id = some d) (hfree : S.spawning.get? id = none)
    (hspawn : S.onDemandSpawn = true) :
    Flighted { S with
      spawning := S.spawning.set id S.attemptSeq
      attempts := S.attempts.set S.attemptSeq { id, source := d, phase := .checkout }
      attemptSeq := S.attemptSeq + 1 } K := by
  have hcases : ∀ k b, (S.attempts.set S.attemptSeq { id, source := d, phase := .checkout }).get? k =
      some b → (k = S.attemptSeq ∧ b = { id, source := d, phase := .checkout }) ∨
        (k < S.attemptSeq ∧ S.attempts.get? k = some b) := by
    intro k b hb
    rw [OrderedMap.get?_set] at hb
    split_ifs at hb with hk
    · exact .inl ⟨hk, (Option.some.inj hb).symm⟩
    · exact .inr ⟨h.numbered k b hb, hb⟩
  have hdone : ∀ k b, S.attempts.get? k = some b → b.id = id → b.phase.Over := by
    intro k b hb hbid
    by_contra hnot
    have hflight := (h.aloft k b hb hnot).1
    rw [hbid, hfree] at hflight
    cases hflight
  refine ⟨?_, ?_, h.entries, fun _ _ _ => hspawn, ?_, ?_, ?_, ?_, ?_, ?_⟩
  · intro k b hb
    dsimp only
    rcases hcases k b hb with ⟨rfl, _⟩ | ⟨hk, _⟩ <;> omega
  · intro k b hb
    rcases hcases k b hb with ⟨_, rfl⟩ | ⟨_, hb'⟩
    · exact h.entries id d hd
    · exact h.sourced k b hb'
  · intro k b hb hnot
    rcases hcases k b hb with ⟨rfl, rfl⟩ | ⟨_, hb'⟩
    · exact ⟨OrderedMap.get?_set_self _ _ _, OrderedMap.has_of_get? hd⟩
    · obtain ⟨hspawning, hdormant⟩ := h.aloft k b hb' hnot
      have hne : b.id ≠ id := fun hbid => hnot (hdone k b hb' hbid)
      exact ⟨by rw [OrderedMap.get?_set_of_ne _ _ hne, hspawning], hdormant⟩
  · intro id' k hk
    rw [OrderedMap.get?_set] at hk
    split_ifs at hk with hid
    · cases hk
      exact ⟨_, OrderedMap.get?_set_self _ _ _, hid.symm, by simp [SpawnPhase.Over]⟩
    · obtain ⟨b, hb, hbid, hnot⟩ := h.flown id' k hk
      have hkn : k ≠ S.attemptSeq := (h.numbered k b hb).ne
      exact ⟨b, by rw [OrderedMap.get?_set_of_ne _ _ hkn, hb], hbid, hnot⟩
  · intro k m b b₂ hb hb₂ hids hlt
    rcases hcases k b hb with ⟨rfl, _⟩ | ⟨_, hb'⟩
    · rcases hcases m b₂ hb₂ with ⟨rfl, _⟩ | ⟨hm, _⟩ <;> omega
    · rcases hcases m b₂ hb₂ with ⟨rfl, rfl⟩ | ⟨_, hb₂'⟩
      · exact hdone k b hb' hids
      · exact h.ordered k m b b₂ hb' hb₂' hids hlt
  · intro k b hb hphase
    rcases hcases k b hb with ⟨_, rfl⟩ | ⟨_, hb'⟩
    · exact hhas
    · exact h.absent k b hb' hphase
  · intro k b hb hphase
    rcases hcases k b hb with ⟨_, rfl⟩ | ⟨_, hb'⟩
    · cases hphase
    · exact h.present k b hb' hphase
  · intro id' w hw
    obtain ⟨b, hb, hid, hready⟩ := h.waits id' w hw
    have hkn : w.attempt ≠ S.attemptSeq := (h.numbered _ b hb).ne
    exact ⟨b, by rw [OrderedMap.get?_set_of_ne _ _ hkn, hb], hid, hready⟩

/-- The worker is registered and its readiness awaited. -/
lemma arrive (h : Flighted S K) (ha : S.attempts.get? n = some a) (hp : a.phase = .checkout)
    {due : ℕ} {g : CompartmentHandle} {A : OrderedMap ℕ SpawnAttempt}
    (hA : ∀ k, A.get? k = if k = n then some { a with phase := .ready } else S.attempts.get? k) :
    Flighted { S with
      attempts := A
      readyWaiters := S.readyWaiters.set a.id { attempt := n, due } } (K.set a.id g) := by
  have hlive : ¬ a.phase.Over := by simp [hp, SpawnPhase.Over]
  have hflight := (h.aloft n a ha hlive).1
  have hcases : ∀ k b, A.get? k = some b →
      (k = n ∧ b = { a with phase := .ready }) ∨ (k ≠ n ∧ S.attempts.get? k = some b) := by
    intro k b hb
    rw [hA] at hb
    split_ifs at hb with hk
    · exact .inl ⟨hk, (Option.some.inj hb).symm⟩
    · exact .inr ⟨hk, hb⟩
  refine ⟨?_, ?_, h.entries, ?_, ?_, ?_, ?_, ?_, ?_, ?_⟩
  · intro k b hb
    rcases hcases k b hb with ⟨rfl, _⟩ | ⟨_, hb'⟩
    · exact h.numbered _ a ha
    · exact h.numbered k b hb'
  · intro k b hb
    rcases hcases k b hb with ⟨_, rfl⟩ | ⟨_, hb'⟩
    · exact h.sourced n a ha
    · exact h.sourced k b hb'
  · exact fun _ _ _ => h.spawns n a ha
  · intro k b hb hnot
    rcases hcases k b hb with ⟨rfl, rfl⟩ | ⟨_, hb'⟩
    · exact h.aloft _ a ha hlive
    · exact h.aloft k b hb' hnot
  · intro id k hk
    obtain ⟨b, hb, hbid, hnot⟩ := h.flown id k hk
    have hget := hA k
    split_ifs at hget with hkn
    · subst hkn
      rw [ha] at hb
      cases hb
      exact ⟨_, hget, hbid, by simp [SpawnPhase.Over]⟩
    · exact ⟨b, hget.trans hb, hbid, hnot⟩
  · intro k m b b₂ hb hb₂ hids hlt
    rcases hcases m b₂ hb₂ with ⟨rfl, rfl⟩ | ⟨_, hb₂'⟩
    · rcases hcases k b hb with ⟨rfl, _⟩ | ⟨_, hb'⟩
      · omega
      · exact h.ordered k m b a hb' ha hids hlt
    · rcases hcases k b hb with ⟨rfl, rfl⟩ | ⟨_, hb'⟩
      · exact absurd (h.ordered k m a b₂ ha hb₂' hids hlt) hlive
      · exact h.ordered k m b b₂ hb' hb₂' hids hlt
  · intro k b hb hphase
    rcases hcases k b hb with ⟨_, rfl⟩ | ⟨hk, hb'⟩
    · cases hphase
    · have hnot : ¬ b.phase.Over := by simp [hphase, SpawnPhase.Over]
      have hne : b.id ≠ a.id := fun hid => hk (h.unique hflight hb' hid hnot)
      simp [h.absent k b hb' hphase, hne]
  · intro k b hb hphase
    rcases hcases k b hb with ⟨_, rfl⟩ | ⟨_, hb'⟩
    · simp
    · simp [h.present k b hb' hphase]
  · intro id w hw
    rw [OrderedMap.get?_set] at hw
    split_ifs at hw with hid
    · cases hw
      exact ⟨_, (hA n).trans (if_pos rfl), hid.symm, rfl⟩
    · obtain ⟨b, hb, hbid, hready⟩ := h.waits id w hw
      have hkn : w.attempt ≠ n := by
        intro hwn
        rw [hwn, ha] at hb
        cases hb
        exact hid hbid.symm
      exact ⟨b, by rw [hA, if_neg hkn, hb], hbid, hready⟩

end Flighted

namespace PortRouter

variable {R R' S S' : PortRouter} {manifests : OrderedMap String PluginManifest} {e : Event}

abbrev Flying (R : PortRouter) : Prop := Flighted R.spawner R.compartments

lemma setPhase_flight (S : PortRouter) {n : ℕ} {a : SpawnAttempt} (phase : SpawnPhase)
    (ha : S.spawner.attempts.get? n = some a) :
    ∃ A, S.setPhase n phase = { S with spawner := { S.spawner with attempts := A } } ∧
      ∀ k, A.get? k = if k = n then some { a with phase } else S.spawner.attempts.get? k := by
  obtain ⟨A, heq⟩ := setPhase_spawner S n phase
  refine ⟨A, heq, fun k => ?_⟩
  have hget := setPhase_get S n phase k
  rw [heq, ha] at hget
  exact hget

/-- Waking the waiters of an id settles the attempt they wait for, if there is one. -/
lemma wakeReady_flight (h : S.Flying) (id : String) (err : Option String) :
    (S.spawner.readyWaiters.get? id = none ∧ S.wakeReady id err = S) ∨
      ∃ w a A, S.spawner.readyWaiters.get? id = some w ∧
        S.spawner.attempts.get? w.attempt = some a ∧ a.id = id ∧ a.phase = .ready ∧
        S.wakeReady id err = { S with spawner := { S.spawner with
          attempts := A, readyWaiters := S.spawner.readyWaiters.delete id } } ∧
        ∀ k, A.get? k =
          if k = w.attempt then some { a with phase := .settled err }
          else S.spawner.attempts.get? k := by
  unfold PortRouter.wakeReady
  cases hw : S.spawner.readyWaiters.get? id with
  | none => exact .inl ⟨rfl, rfl⟩
  | some w =>
    obtain ⟨a, ha, hid, hp⟩ := h.waits id w hw
    let B : PortRouter := { S with
      spawner := { S.spawner with readyWaiters := S.spawner.readyWaiters.delete id } }
    obtain ⟨A, heq, hA⟩ := setPhase_flight B (.settled err) ha
    exact .inr ⟨w, a, A, rfl, ha, hid, hp, heq, hA⟩

lemma checkedOut_flight (h : R.Flying) {id : String} (hs : R.checkedOut id = some R') :
    ∃ n a A due, R.spawner.spawning.get? id = some n ∧ R.spawner.attempts.get? n = some a ∧
      a.id = id ∧ a.phase = .checkout ∧
      (∀ k, A.get? k =
        if k = n then some { a with phase := .ready } else R.spawner.attempts.get? k) ∧
      R'.spawner = { R.spawner with
        attempts := A, readyWaiters := R.spawner.readyWaiters.set a.id { attempt := n, due } } ∧
      R'.compartments = R.compartments.set a.id { bootedAt := R.ports.now } := by
  obtain ⟨n, a, hflight, ha, hp, rfl⟩ := checkedOut_cases R hs
  obtain ⟨a', ha', hid, _⟩ := h.flown id n hflight
  rw [ha] at ha'
  cases ha'
  have hsource : a.source.entry.id = a.id := h.sourced n a ha
  let B := (R.register a.source.entry a.source.manifest a.source.tokens).init a.source.entry
    a.source.tokens a.source.config
  have hcompartments : B.compartments = R.compartments.set a.id { bootedAt := R.ports.now } := by
    rw [← hsource]
    rfl
  have hstate : (B.compartments.get? id).map CompartmentHandle.state = some .booting := by
    rw [hcompartments, hid, OrderedMap.get?_set_self]
    rfl
  let W := R.spawner.readyWaiters.set id { attempt := n, due := B.ports.now + 10000 }
  have hwait : B.waitActive id n = ({ B with spawner := { B.spawner with readyWaiters := W } } :
      PortRouter).setPhase n .ready := by
    unfold PortRouter.waitActive
    rw [hstate]
    rfl
  obtain ⟨A, heq, hA⟩ := setPhase_flight
    ({ B with spawner := { B.spawner with readyWaiters := W } } : PortRouter) .ready ha
  refine ⟨n, a, A, B.ports.now + 10000, hflight, ha, hid, hp, hA, ?_, ?_⟩
  · rw [hwait, heq, hid]
    rfl
  · rw [hwait, heq]
    exact hcompartments

lemma Flying.restated (h : S.Flying) (id : String) (g : CompartmentHandle → CompartmentHandle) :
    (S.setState id g).Flying := by
  rw [PortRouter.Flying, setState_spawner]
  refine h.housing (fun id' hid => ?_) (fun id' hid => .inl ?_)
  · rw [setState_has]
    exact hid
  · rw [setState_has] at hid
    exact hid

lemma Turn.flying (ht : Turn manifests R e S S') (he : ∀ id, e ≠ .checkedOut id) (h : S.Flying) :
    S'.Flying := by
  cases ht with
  | registered entry m tokens _ _ hhas hfree =>
    refine h.housing (fun id hid => ?_) (fun id hid => ?_)
    · simp [PortRouter.register, hid]
    · simp only [PortRouter.register, OrderedMap.has_set, Bool.or_eq_true, decide_eq_true_eq] at hid
      rcases hid with rfl | hid
      · exact .inr hfree
      · exact .inl hid
  | dormant entry m tokens => exact h.registerDormant { entry, manifest := m, tokens, config := entry.config }
  | arrived id _ _ hout => exact absurd hout (he id)
  | waiting _ id _ hout => exact absurd hout (he id)
  | missed id err n a _ _ ha hp =>
    obtain ⟨A, heq, hA⟩ := setPhase_flight R (.settled (some err)) ha
    rw [heq]
    apply h.settle ha (by simp [hp, SpawnPhase.Over]) hA
    intro id' w hw
    refine ⟨hw, fun hwn => ?_⟩
    obtain ⟨b, hb, _, hready⟩ := h.waits id' w hw
    rw [hwn, ha] at hb
    cases hb
    rw [hp] at hready
    cases hready
  | landed id n a err _ hflight ha hp =>
    obtain ⟨a', ha', rfl, _⟩ := h.flown id n hflight
    rw [ha] at ha'
    cases ha'
    obtain ⟨A, heq, hA⟩ := setPhase_flight (R.landed a.id err) (.over err) ha
    rw [heq]
    exact h.land ha hp hA
  | started _ id d hno hd hs hspawn => exact h.startAttempt hno hd hs hspawn
  | woken _ id err =>
    rcases wakeReady_flight h id err with ⟨_, heq⟩ | ⟨w, a, A, hw, ha, hid, hp, heq, hA⟩
    · rw [heq]
      exact h
    · rw [heq]
      apply h.settle ha (by simp [hp, SpawnPhase.Over]) hA
      intro id' w' hw'
      rw [OrderedMap.get?_delete] at hw'
      split_ifs at hw' with hne
      refine ⟨hw', fun hwn => ?_⟩
      obtain ⟨b, hb, hbid, _⟩ := h.waits id' w' hw'
      rw [hwn, ha] at hb
      cases hb
      exact hne (hbid.symm.trans hid)
  | readied _ id => exact Flying.restated h id _
  | called _ id => exact Flying.restated h id _
  | crashed _ id err => exact Flying.restated h id _
  | stopped _ id => exact Flying.restated h id _
  | tables => exact h
  | noted => exact h
  | counted => exact h
  | framed => exact h
  | revoked => exact h
  | arbitrated => exact h

lemma Flying.step (hW : R.Wired) (h : R.Flying) (hs : PortRouter.step manifests R e = some R') :
    R'.Flying := by
  by_cases hout : ∃ id, e = .checkedOut id
  · obtain ⟨id, rfl⟩ := hout
    obtain ⟨n, a, A, due, _, ha, _, hp, hA, hspawner, hcompartments⟩ := checkedOut_flight h hs
    rw [PortRouter.Flying, hspawner, hcompartments]
    exact h.arrive ha hp hA
  · exact (hW.turns hs).invariant (J := PortRouter.Flying)
      (fun _ _ ht hT => ht.flying (fun id he => hout ⟨id, he⟩) hT) h

lemma Flying.reachable {ok : PortRouter → Event → Prop} (h : (system manifests).Reachable ok R) :
    R.Flying := by
  apply h.invariant
  · rintro R ⟨journaling, kernel, onDemandSpawn, rfl⟩
    exact .empty onDemandSpawn
  · intro R e R' hR h _ hs
    exact Flying.step (Wired.reachable hR) h hs

/-! ### What a step does to one attempt -/

/-- A flight that is over stays over, one that has settled only lands, and none succeeds without a
`ready` message. -/
structure Advance (e : Event) (id : String) (phase phase' : SpawnPhase) : Prop where
  «over» : phase.Over → phase' = phase
  settled : ∀ err, phase = .settled err → phase' = .settled err ∨ phase' = .over err
  readied : phase' = .settled none ∨ phase' = .over none →
    phase = .settled none ∨ phase = .over none ∨ e = .message id .ready

namespace Advance

variable {id : String} {phase phase' phase'' : SpawnPhase}

lemma refl (e : Event) (id : String) (phase : SpawnPhase) : Advance e id phase phase := by
  refine ⟨fun _ => rfl, fun _ h => .inl h, ?_⟩
  rintro (h | h)
  · exact .inl h
  · exact .inr (.inl h)

lemma trans (h : Advance e id phase phase') (h' : Advance e id phase' phase'') :
    Advance e id phase phase'' := by
  refine ⟨?_, ?_, ?_⟩
  · intro hover
    have heq := h.over hover
    exact (h'.over (heq ▸ hover)).trans heq
  · intro err hsettled
    rcases h.settled err hsettled with heq | heq
    · exact h'.settled err heq
    · exact .inr ((h'.over (heq ▸ trivial)).trans heq)
  · intro hready
    rcases h'.readied hready with heq | heq | he
    · exact h.readied (.inl heq)
    · exact h.readied (.inr heq)
    · exact .inr (.inr he)

/-- Where an attempt in its checkout or waiting for `ready` settles. -/
lemma settle {err : Option String} (hlive : ¬ phase.Over) (hnew : ∀ err, phase ≠ .settled err)
    (he : err = none → e = .message id .ready) : Advance e id phase (.settled err) := by
  refine ⟨fun hover => absurd hover hlive, fun err h => absurd h (hnew err), ?_⟩
  rintro (h | h)
  · cases h
    exact .inr (.inr (he rfl))
  · cases h

end Advance

/-- Every attempt of `R` is still there, and what is new is in its checkout. -/
structure Advanced (e : Event) (R S : PortRouter) : Prop where
  kept : ∀ n a, R.spawner.attempts.get? n = some a → ∃ a', S.spawner.attempts.get? n = some a' ∧
    a'.id = a.id ∧ Advance e a.id a.phase a'.phase
  fresh : ∀ n a, S.spawner.attempts.get? n = some a → R.spawner.attempts.get? n = none →
    a.phase = .checkout

namespace Advanced

lemma refl (e : Event) (R : PortRouter) : Advanced e R R := by
  refine ⟨fun n a ha => ⟨a, ha, rfl, .refl e a.id a.phase⟩, fun n a ha hnone => ?_⟩
  rw [hnone] at ha
  cases ha

lemma of_attempts (h : Advanced e R S) (hsame : S'.spawner.attempts = S.spawner.attempts) :
    Advanced e R S' :=
  ⟨fun n a ha => hsame.symm ▸ h.kept n a ha, fun n a ha => h.fresh n a (hsame ▸ ha)⟩

lemma rephase (h : Advanced e R S) {n : ℕ} {a : SpawnAttempt} {phase : SpawnPhase}
    (ha : S.spawner.attempts.get? n = some a) (hold : a.phase ≠ .checkout ∨ S = R)
    (hnext : Advance e a.id a.phase phase)
    (hS : ∀ k, S'.spawner.attempts.get? k =
      if k = n then some { a with phase } else S.spawner.attempts.get? k) : Advanced e R S' := by
  refine ⟨fun k b hb => ?_, fun k b hb hnone => ?_⟩
  · obtain ⟨b', hb', hid, hadvance⟩ := h.kept k b hb
    by_cases hk : k = n
    · subst hk
      rw [ha] at hb'
      cases hb'
      exact ⟨_, (hS k).trans (if_pos rfl), hid, hadvance.trans (hid ▸ hnext)⟩
    · exact ⟨b', by rw [hS, if_neg hk, hb'], hid, hadvance⟩
  · rw [hS] at hb
    split_ifs at hb with hk
    · subst hk
      rcases hold with hold | rfl
      · exact absurd (h.fresh k a ha hnone) hold
      · rw [hnone] at ha
        cases ha
    · exact h.fresh k b hb hnone

end Advanced

lemma Turn.advanced (ht : Turn manifests R e S S') (he : ∀ id, e ≠ .checkedOut id) (hS : S.Flying)
    (h : Advanced e R S) : Advanced e R S' := by
  cases ht with
  | arrived id _ _ hout => exact absurd hout (he id)
  | waiting _ id _ hout => exact absurd hout (he id)
  | missed id err n a _ _ ha hp =>
    obtain ⟨A, heq, hA⟩ := setPhase_flight R (.settled (some err)) ha
    rw [heq]
    refine h.rephase ha (.inr rfl) (.settle ?_ ?_ ?_) hA <;> simp [hp, SpawnPhase.Over]
  | landed id n a err _ _ ha hp =>
    obtain ⟨A, heq, hA⟩ := setPhase_flight (R.landed id err) (.over err) ha
    rw [heq]
    refine h.rephase ha (.inr rfl) ⟨?_, ?_, ?_⟩ hA
    · simp [hp, SpawnPhase.Over]
    · intro err' herr
      rw [hp] at herr
      cases herr
      exact .inr rfl
    · rintro (hnone | hnone)
      · cases hnone
      · cases hnone
        exact .inl hp
  | started _ id d hno hd hs =>
    refine ⟨fun n a ha => ?_, fun n a ha hnone => ?_⟩
    · obtain ⟨a', ha', hrest⟩ := h.kept n a ha
      have hne : n ≠ S.spawner.attemptSeq := (hS.numbered n a' ha').ne
      refine ⟨a', ?_, hrest⟩
      rw [PortRouter.startAttempt, OrderedMap.get?_set_of_ne _ _ hne, ha']
    · simp only [PortRouter.startAttempt, OrderedMap.get?_set] at ha
      split_ifs at ha
      · cases ha
        rfl
      · exact h.fresh n a ha hnone
  | woken _ id err hready =>
    rcases wakeReady_flight hS id err with ⟨_, heq⟩ | ⟨w, a, A, _, ha, hid, hp, heq, hA⟩
    · rw [heq]
      exact h
    · rw [heq]
      refine h.rephase ha (.inl (by simp [hp])) (.settle ?_ ?_ (hid ▸ hready)) hA <;>
        simp [hp, SpawnPhase.Over]
  | readied _ id => exact h.of_attempts (by rw [setState_spawner])
  | called _ id => exact h.of_attempts (by rw [setState_spawner])
  | crashed _ id err => exact h.of_attempts (by rw [setState_spawner])
  | stopped _ id => exact h.of_attempts (by rw [setState_spawner])
  | registered => exact h.of_attempts rfl
  | dormant => exact h.of_attempts rfl
  | tables => exact h.of_attempts rfl
  | noted => exact h.of_attempts rfl
  | counted => exact h.of_attempts rfl
  | framed => exact h.of_attempts rfl
  | revoked => exact h.of_attempts rfl
  | arbitrated => exact h.of_attempts rfl

lemma Flying.advanced (hW : R.Wired) (h : R.Flying) (hs : PortRouter.step manifests R e = some R') :
    Advanced e R R' := by
  by_cases hout : ∃ id, e = .checkedOut id
  · obtain ⟨id, rfl⟩ := hout
    obtain ⟨n, a, A, due, _, ha, _, hp, hA, hspawner, _⟩ := checkedOut_flight h hs
    have hready : Advance (.checkedOut id) a.id a.phase .ready := by
      refine ⟨?_, ?_, ?_⟩ <;> simp [hp, SpawnPhase.Over]
    exact (Advanced.refl _ R).rephase ha (.inr rfl) hready (fun k => by rw [hspawner]; exact hA k)
  · have hboth := (hW.turns hs).invariant (J := fun S => S.Flying ∧ Advanced e R S)
      (fun _ _ ht hT => ⟨ht.flying (fun id he => hout ⟨id, he⟩) hT.1,
        ht.advanced (fun id he => hout ⟨id, he⟩) hT.1 hT.2⟩) ⟨h, .refl e R⟩
    exact hboth.2

/-! ### Who comes in -/

/-- What brings a compartment in: its eager registration, with no flight of its id, or its checkout. -/
def Enters (R : PortRouter) (e : Event) (id : String) : Prop :=
  e = .checkedOut id ∨ ∃ entry tokens, e = .register entry tokens ∧ entry.id = id ∧
    R.spawner.spawning.has id = false

lemma Turn.entering (ht : Turn manifests R e S S') (hR : R.Flying) :
    (∀ id, S'.compartments.has id = S.compartments.has id) ∨
      ∃ id, Enters R e id ∧
        ∀ id', S'.compartments.has id' = (decide (id' = id) || S.compartments.has id') := by
  cases ht with
  | registered entry m tokens he _ _ hfree =>
    exact .inr ⟨entry.id, .inr ⟨entry, tokens, he, rfl, hfree⟩, fun id' => OrderedMap.has_set _ _ _ _⟩
  | arrived id n a he hflight ha =>
    obtain ⟨a', ha', hid, _⟩ := hR.flown id n hflight
    rw [ha] at ha'
    cases ha'
    have hsource : a.source.entry.id = id := (hR.sourced n a ha).trans hid
    exact .inr ⟨a.source.entry.id, .inl (hsource ▸ he), fun id' => OrderedMap.has_set _ _ _ _⟩
  | waiting _ id n =>
    obtain ⟨A, W, heq⟩ := waitActive_shape S id n
    rw [heq]
    exact .inl (fun _ => rfl)
  | missed =>
    rw [setPhase_shape]
    exact .inl (fun _ => rfl)
  | landed =>
    rw [setPhase_shape]
    exact .inl (fun _ => rfl)
  | woken _ id err =>
    obtain ⟨A, W, heq⟩ := wakeReady_shape S id err
    rw [heq]
    exact .inl (fun _ => rfl)
  | readied _ id => exact .inl (setState_has S id _)
  | called _ id => exact .inl (setState_has S id _)
  | crashed _ id err => exact .inl (setState_has S id _)
  | stopped _ id => exact .inl (setState_has S id _)
  | dormant => exact .inl (fun _ => rfl)
  | tables => exact .inl (fun _ => rfl)
  | noted => exact .inl (fun _ => rfl)
  | counted => exact .inl (fun _ => rfl)
  | framed => exact .inl (fun _ => rfl)
  | started => exact .inl (fun _ => rfl)
  | revoked => exact .inl (fun _ => rfl)
  | arbitrated => exact .inl (fun _ => rfl)

lemma Flying.housed (hW : R.Wired) (h : R.Flying)
    (hs : PortRouter.step manifests R e = some R') {id : String} :
    (R.compartments.has id = true → R'.compartments.has id = true) ∧
      (R'.compartments.has id = true → R.compartments.has id = true ∨ Enters R e id) := by
  refine (hW.turns hs).invariant (J := fun S =>
    (R.compartments.has id = true → S.compartments.has id = true) ∧
      (S.compartments.has id = true → R.compartments.has id = true ∨ Enters R e id)) ?_
    ⟨fun hhas => hhas, .inl⟩
  rintro S S' ht ⟨hstays, hcomes⟩
  rcases ht.entering h with hsame | ⟨id', hid', hset⟩
  · rw [hsame id]
    exact ⟨hstays, hcomes⟩
  · rw [hset id]
    refine ⟨fun hhas => by simp [hstays hhas], fun hhas => ?_⟩
    simp only [Bool.or_eq_true, decide_eq_true_eq] at hhas
    rcases hhas with rfl | hhas
    · exact .inr hid'
    · exact hcomes hhas

/-- A dormant id stays dormant until a flight of it has succeeded. -/
lemma Turn.dormant_kept (ht : Turn manifests R e S S') (hR : R.Flying) {id : String}
    (hd : S.spawner.dormant.has id = true) :
    S'.spawner.dormant.has id = true ∨ ∃ n a, R.spawner.attempts.get? n = some a ∧ a.id = id ∧
      a.phase = .settled none := by
  cases ht with
  | dormant entry m tokens =>
    refine .inl ?_
    simp only [PortRouter.registerDormant, OrderedMap.has_set, hd, Bool.or_true]
  | landed id' n a err _ hflight ha hp =>
    rw [setPhase_shape]
    cases err with
    | some text => exact .inl hd
    | none =>
      by_cases hid : id = id'
      · obtain ⟨a', ha', haid, _⟩ := hR.flown id' n hflight
        rw [ha] at ha'
        cases ha'
        exact .inr ⟨n, a, ha, haid.trans hid.symm, hp⟩
      · refine .inl ?_
        simp [PortRouter.landed, hid, hd]
  | waiting _ id' n =>
    obtain ⟨A, W, heq⟩ := waitActive_shape S id' n
    rw [heq]
    exact .inl hd
  | missed =>
    rw [setPhase_shape]
    exact .inl hd
  | woken _ id' err =>
    obtain ⟨A, W, heq⟩ := wakeReady_shape S id' err
    rw [heq]
    exact .inl hd
  | readied _ id' =>
    rw [setState_spawner]
    exact .inl hd
  | called _ id' =>
    rw [setState_spawner]
    exact .inl hd
  | crashed _ id' err =>
    rw [setState_spawner]
    exact .inl hd
  | stopped _ id' =>
    rw [setState_spawner]
    exact .inl hd
  | registered => exact .inl hd
  | arrived => exact .inl hd
  | tables => exact .inl hd
  | noted => exact .inl hd
  | counted => exact .inl hd
  | framed => exact .inl hd
  | started => exact .inl hd
  | revoked => exact .inl hd
  | arbitrated => exact .inl hd

lemma Flying.dormant_kept (hW : R.Wired) (h : R.Flying)
    (hs : PortRouter.step manifests R e = some R') {id : String}
    (hd : R.spawner.dormant.has id = true) :
    R'.spawner.dormant.has id = true ∨ ∃ n a, R.spawner.attempts.get? n = some a ∧ a.id = id ∧
      a.phase = .settled none := by
  refine (hW.turns hs).invariant (J := fun S => S.spawner.dormant.has id = true ∨
    ∃ n a, R.spawner.attempts.get? n = some a ∧ a.id = id ∧ a.phase = .settled none) ?_ (.inl hd)
  rintro S S' ht (hS | hdone)
  · exact ht.dormant_kept h hS
  · exact .inr hdone

end PortRouter

end VivimOmega.Host

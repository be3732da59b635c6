import VivimOmega.Host.Flights

/-! What a failed on-demand spawn leaves behind: a dormant id that the next call spawns afresh, if it
failed in its checkout, and a half-started compartment otherwise. -/

namespace VivimOmega.Host

open Library Contracts

namespace PortRouter

variable {R R' R₁ R₂ S S' : PortRouter} {manifests : OrderedMap String PluginManifest} {e : Event}

/-- The boot registers the eager entries before the dormant ones. -/
def OnceEnrolled (R : PortRouter) : Event → Prop
  | .register entry _ => R.spawner.dormant.has entry.id = false
  | _ => True

instance (R : PortRouter) (e : Event) : Decidable (R.OnceEnrolled e) := by
  unfold OnceEnrolled
  split
  · exact inferInstanceAs (Decidable (_ = _))
  · exact inferInstanceAs (Decidable True)

/-- The id is dormant and not present, and the next call that gets as far as its target starts a
fresh attempt. -/
structure Retryable (R : PortRouter) (id : String) : Prop where
  dormant : R.spawner.dormant.has id = true
  absent : R.compartments.has id = false
  idle : R.spawner.spawning.get? id = none
  unused : R.spawner.attempts.get? R.spawner.attemptSeq = none
  retried : ∀ c f, f.impl = id → ∃ d, R.spawner.dormant.get? id = some d ∧
    R.execute c f = (R.startAttempt id d).setCall c { f with stage := .spawn R.spawner.attemptSeq }

/-- The step rejects the promise of attempt `n`. -/
structure Fails (R R₁ : PortRouter) (n : ℕ) (a : SpawnAttempt) (err : String) : Prop where
  before : R.spawner.attempts.get? n = some a
  underway : a.phase = .checkout ∨ a.phase = .ready
  after : (R₁.spawner.attempts.get? n).map SpawnAttempt.phase = some (.settled (some err))

/-- The flight of attempt `n` is over, and no attempt of the id was started since. -/
structure Landed (R : PortRouter) (n : ℕ) (id : String) : Prop where
  «over» : ∃ a, R.spawner.attempts.get? n = some a ∧ a.phase.Over
  last : ∀ m a, R.spawner.attempts.get? m = some a → a.id = id → m ≤ n

lemma Retryable.of_absent (h : R.Flying) {n : ℕ} {a : SpawnAttempt}
    (ha : R.spawner.attempts.get? n = some a) (hover : a.phase.Over)
    (hlast : ∀ m b, R.spawner.attempts.get? m = some b → b.id = a.id → m ≤ n)
    (habsent : R.compartments.has a.id = false) (hdormant : R.spawner.dormant.has a.id = true) :
    Retryable R a.id := by
  have hidle : R.spawner.spawning.get? a.id = none := by
    cases hflight : R.spawner.spawning.get? a.id with
    | none => rfl
    | some m =>
      exfalso
      obtain ⟨b, hb, hbid, hlive⟩ := h.flown a.id m hflight
      have hmn : m < n := by
        refine lt_of_le_of_ne (hlast m b hb hbid) ?_
        rintro rfl
        rw [ha] at hb
        cases hb
        exact hlive hover
      exact hlive (h.ordered m n b a hb ha hbid hmn)
  refine ⟨hdormant, habsent, hidle, ?_, ?_⟩
  · cases hnext : R.spawner.attempts.get? R.spawner.attemptSeq with
    | none => rfl
    | some b => exact absurd (h.numbered _ b hnext) (lt_irrefl _)
  · rintro c f himpl
    obtain ⟨d, hd⟩ := (OrderedMap.has_iff _ _).mp hdormant
    refine ⟨d, hd, ?_⟩
    have hspawns := h.spawns n a ha
    simp only [PortRouter.execute, PortRouter.spawnDormant, himpl, habsent, hd, hidle, hspawns]
    rfl

/-- From the failure in the checkout on: the attempt has failed, and the id is dormant and absent,
or another attempt was started. -/
structure Missed (n : ℕ) (id err : String) (S : PortRouter) : Prop where
  failed : ∃ b, S.spawner.attempts.get? n = some b ∧ b.id = id ∧
    (b.phase = .settled (some err) ∨ b.phase = .over (some err))
  left : (S.compartments.has id = false ∧ S.spawner.dormant.has id = true) ∨
    ∃ m b, S.spawner.attempts.get? m = some b ∧ b.id = id ∧ n < m

lemma Missed.step {n : ℕ} {id err : String} (hW : S.Wired) (hF : S.Flying) (h : Missed n id err S)
    (hok : S.OnceEnrolled e) (hs : PortRouter.step manifests S e = some S') : Missed n id err S' := by
  have hadvanced := Flying.advanced hW hF hs
  obtain ⟨b, hb, hbid, hphase⟩ := h.failed
  have hkept : ∀ m b, S.spawner.attempts.get? m = some b → b.id = id → n < m →
      ∃ m b, S'.spawner.attempts.get? m = some b ∧ b.id = id ∧ n < m := by
    intro m b hb hbid hlt
    obtain ⟨b', hb', hid, _⟩ := hadvanced.kept m b hb
    exact ⟨m, b', hb', hid.trans hbid, hlt⟩
  -- another attempt of the id that is not over was started later
  have hlater : ∀ m c, S.spawner.attempts.get? m = some c → c.id = id → m ≠ n → ¬ c.phase.Over →
      n < m := by
    intro m c hc hcid hne hlive
    rcases lt_or_gt_of_ne hne with hlt | hlt
    · exact absurd (hF.ordered m n c b hc hb (hcid.trans hbid.symm) hlt) hlive
    · exact hlt
  have hother : ∀ m c, S.spawner.attempts.get? m = some c → c.phase ≠ b.phase → m ≠ n := by
    rintro m c hc hne rfl
    rw [hb] at hc
    cases hc
    exact hne rfl
  refine ⟨?_, ?_⟩
  · obtain ⟨b', hb', hid, hadvance⟩ := hadvanced.kept n b hb
    refine ⟨b', hb', hid.trans hbid, ?_⟩
    rcases hphase with hp | hp
    · exact hadvance.settled _ hp
    · exact .inr ((hadvance.over (hp ▸ trivial)).trans hp)
  · rcases h.left with ⟨habsent, hdormant⟩ | ⟨m, c, hc, hcid, hlt⟩
    · by_cases hhas : S'.compartments.has id = true
      · rcases (Flying.housed hW hF hs).2 hhas with hold | rfl | ⟨entry, tokens, rfl, rfl, _⟩
        · rw [habsent] at hold
          cases hold
        · obtain ⟨m, c, _, _, _, hc, hcid, hcheckout, _⟩ := checkedOut_flight hF hs
          have hne : c.phase ≠ b.phase := by
            rcases hphase with hp | hp <;> simp [hcheckout, hp]
          exact .inr (hkept m c hc hcid (hlater m c hc hcid (hother m c hc hne)
            (by simp [hcheckout, SpawnPhase.Over])))
        · have hnot : S.spawner.dormant.has entry.id = false := hok
          rw [hdormant] at hnot
          cases hnot
      · rcases Flying.dormant_kept hW hF hs hdormant with hd | ⟨m, c, hc, hcid, hsettled⟩
        · exact .inl ⟨by simpa using hhas, hd⟩
        · have hne : c.phase ≠ b.phase := by
            rcases hphase with hp | hp <;> simp [hsettled, hp]
          exact .inr (hkept m c hc hcid (hlater m c hc hcid (hother m c hc hne)
            (by simp [hsettled, SpawnPhase.Over])))
    · exact .inr (hkept m c hc hcid hlt)

/-- A spawn that fails in its checkout leaves its id as it was. -/
lemma Fails.missed {n : ℕ} {a : SpawnAttempt} {err : String} (hW : R.Wired) (hF : R.Flying)
    (h : Fails R R₁ n a err) (hs : PortRouter.step manifests R e = some R₁)
    (hcheckout : a.phase = .checkout) : Missed n a.id err R₁ := by
  have hlive : ¬ a.phase.Over := by simp [hcheckout, SpawnPhase.Over]
  obtain ⟨b, hb, hbid, _⟩ := (Flying.advanced hW hF hs).kept n a h.before
  have hphase : b.phase = .settled (some err) := by
    have hafter := h.after
    rw [hb] at hafter
    exact Option.some.inj hafter
  refine ⟨⟨b, hb, hbid, .inl hphase⟩, .inl ⟨?_, ?_⟩⟩
  · by_contra hhas
    rcases (Flying.housed hW hF hs).2 (by simpa using hhas) with hold | rfl | ⟨_, _, _, _, hfree⟩
    · rw [hF.absent n a h.before hcheckout] at hold
      cases hold
    · obtain ⟨m, c, A, _, hflight, _, _, _, hA, hspawner, _⟩ := checkedOut_flight hF hs
      obtain rfl : n = m := hF.unique hflight h.before rfl hlive
      rw [hspawner] at hb
      have hready := (hA n).symm.trans hb
      rw [if_pos rfl] at hready
      cases hready
      cases hphase
    · rw [OrderedMap.has_of_get? (hF.aloft n a h.before hlive).1] at hfree
      cases hfree
  · have hF₁ := Flying.step hW hF hs
    rw [← hbid]
    exact (hF₁.aloft n b hb (by simp [hphase, SpawnPhase.Over])).2

theorem failed_spawn_retryable (manifests : OrderedMap String PluginManifest) (R R₁ : PortRouter)
    (e : Event) (n : ℕ) (a : SpawnAttempt) (err : String)
    (h : (system manifests).Reachable OnceEnrolled R) (hok : R.OnceEnrolled e)
    (hs : PortRouter.step manifests R e = some R₁) (hfails : Fails R R₁ n a err) :
    (∀ R₂, (system manifests).Later OnceEnrolled R₁ R₂ → Landed R₂ n a.id → Retryable R₂ a.id) ↔
      a.phase = .checkout := by
  have hW := Wired.reachable h
  have hF := Flying.reachable h
  have hR₁ : (system manifests).Reachable OnceEnrolled R₁ := .next h hok hs
  constructor
  · intro hretryable
    by_contra hnot
    have hready : a.phase = .ready := hfails.underway.resolve_left hnot
    -- the half-started compartment is still there when the flight lands
    obtain ⟨b, hb, hphase⟩ := Option.map_eq_some_iff.mp hfails.after
    obtain ⟨b', hb', hbid, _⟩ := (Flying.advanced hW hF hs).kept n a hfails.before
    rw [hb] at hb'
    cases hb'
    have hF₁ := Flying.reachable hR₁
    have hflight := (hF₁.aloft n b hb (by simp [hphase, SpawnPhase.Over])).1
    have hland : PortRouter.step manifests R₁ (.settleSpawn b.id) =
        some ((R₁.landed b.id (some err)).setPhase n (.over (some err))) := by
      simp only [PortRouter.step, PortRouter.settleSpawn, hflight, hb, hphase, Option.bind_eq_bind,
        Option.bind_some]
      rfl
    obtain ⟨A, heq, hA⟩ := setPhase_flight (R₁.landed b.id (some err)) (.over (some err)) hb
    have hquiet : R₁.OnceEnrolled (.settleSpawn b.id) := trivial
    have hlater : (system manifests).Later OnceEnrolled R₁
        ((R₁.landed b.id (some err)).setPhase n (.over (some err))) := .next .refl hquiet hland
    have hlanded : Landed ((R₁.landed b.id (some err)).setPhase n (.over (some err))) n a.id := by
      rw [heq]
      refine ⟨⟨_, (hA n).trans (if_pos rfl), trivial⟩, fun m c hc hcid => ?_⟩
      by_contra hlt
      have hmn : m ≠ n := by omega
      have hc' : R₁.spawner.attempts.get? m = some c := by
        rw [← hc]
        exact ((hA m).trans (if_neg hmn)).symm
      have hover := hF₁.ordered n m b c hb hc' (hbid.trans hcid.symm) (by omega)
      simp [hphase, SpawnPhase.Over] at hover
    have habsent := (hretryable _ hlater hlanded).absent
    have hpresent := (Flying.housed hW hF hs).1 (hF.present n a hfails.before hready)
    rw [heq] at habsent
    have hsame : R₁.compartments.has a.id = false := habsent
    rw [hpresent] at hsame
    cases hsame
  · intro hcheckout R₂ hrun hlanded
    obtain ⟨hR₂, hmissed⟩ : (system manifests).Reachable OnceEnrolled R₂ ∧ Missed n a.id err R₂ := by
      refine hrun.invariant (P := fun S => (system manifests).Reachable OnceEnrolled S ∧
        Missed n a.id err S) ⟨hR₁, hfails.missed hW hF hs hcheckout⟩ ?_
      rintro S e' S' ⟨hS, hmissed⟩ hok' hs'
      exact ⟨.next hS hok' hs',
        hmissed.step (Wired.reachable hS) (Flying.reachable hS) hok' hs'⟩
    obtain ⟨b, hb, hbid, _⟩ := hmissed.failed
    obtain ⟨b', hb', hover⟩ := hlanded.over
    rw [hb] at hb'
    cases hb'
    rcases hmissed.left with ⟨habsent, hdormant⟩ | ⟨m, c, hc, hcid, hlt⟩
    · rw [← hbid] at habsent hdormant ⊢
      exact .of_absent (Flying.reachable hR₂) hb hover
        (fun m c hc hcid => hlanded.last m c hc (hcid.trans hbid)) habsent hdormant
    · exact absurd (hlanded.last m c hc hcid) (by omega)

/-! ### The note store is spawned and fails -/

/-- The note store is dormant, and a first touch has started its spawn. -/
def touched : List Event :=
  [.register Sample.law .empty, .registerDormant Sample.notes .empty, Sample.get]

theorem failed_spawn_retryable_missed :
    ∃ R₁ : PortRouter, R₁.spawner.spawning.has "notes" = true ∧
      ∀ R₂, (system (Sample.manifests none none)).Later OnceEnrolled R₁ R₂ →
        Landed R₂ 0 "notes" → Retryable R₂ "notes" := by
  have hbefore : ((system (Sample.manifests none none)).exec OnceEnrolled Sample.start touched).map
      (fun R => decide ((R.spawner.attempts.get? 0).map (fun a => (a.id, a.phase)) =
        some ("notes", .checkout))) = some true := by decide
  have hafter : ((system (Sample.manifests none none)).exec OnceEnrolled Sample.start
      (touched ++ [.checkoutFailed "notes" "no such file"])).map (fun R => decide
        ((R.spawner.attempts.get? 0).map SpawnAttempt.phase =
          some (.settled (some "no such file")) ∧ R.spawner.spawning.has "notes" = true)) =
      some true := by decide
  obtain ⟨R, R₁, hR, hstarted, hok, hs, hmissed⟩ :=
    System.exec_step (Sample.start_init _) hbefore hafter
  obtain ⟨a, ha, hphase⟩ := Option.map_eq_some_iff.mp (of_decide_eq_true hstarted)
  obtain ⟨hid, hcheckout⟩ := Prod.mk.inj hphase
  obtain ⟨hsettled, hflight⟩ := of_decide_eq_true hmissed
  have hretryable := (failed_spawn_retryable _ R R₁ _ 0 a _ hR hok hs
    ⟨ha, .inl hcheckout, hsettled⟩).mpr hcheckout
  exact ⟨R₁, hflight, hid ▸ hretryable⟩

/-- The worker is there but never says `ready`: it stays among the compartments. -/
theorem failed_spawn_retryable_halfStarted :
    ¬ ∀ (manifests : OrderedMap String PluginManifest) (R R₁ R₂ : PortRouter) (e : Event) (n : ℕ)
      (a : SpawnAttempt) (err : String), (system manifests).Reachable OnceEnrolled R →
      PortRouter.step manifests R e = some R₁ → Fails R R₁ n a err →
      (system manifests).Later OnceEnrolled R₁ R₂ → Landed R₂ n a.id → Retryable R₂ a.id := by
  intro hclaim
  let M := system (Sample.manifests none none)
  let err := "Error: compartment notes not active within 10000ms"
  have hbefore : (M.exec OnceEnrolled Sample.start
      (touched ++ [.checkedOut "notes", .advance 10000])).map
      (fun R => decide ((R.spawner.attempts.get? 0).map (fun a => (a.id, a.phase)) =
        some ("notes", .ready)) && ((PortRouter.step (Sample.manifests none none) R
          (.readyTimeout "notes")).any (fun R₁ => decide
            ((R₁.spawner.attempts.get? 0).map SpawnAttempt.phase = some (.settled (some err)))))) =
      some true := by decide
  have hafter : (M.exec OnceEnrolled Sample.start
      (touched ++ [.checkedOut "notes", .advance 10000] ++
        .readyTimeout "notes" :: [.settleSpawn "notes"])).map
      (fun R => decide ((R.spawner.attempts.get? 0).map SpawnAttempt.phase = some (.over (some err)))
        && R.spawner.attempts.entries.all (fun x => decide (x.1 ≤ 0)) &&
        R.compartments.has "notes") = some true := by decide
  obtain ⟨R, R₁, R₂, hR, hready, _, hs, _, hlater, hend⟩ :=
    System.exec_split (Sample.start_init _) hbefore hafter
  have hs' : PortRouter.step (Sample.manifests none none) R (.readyTimeout "notes") = some R₁ := hs
  rw [hs', Bool.and_eq_true] at hready
  obtain ⟨a, ha, hphase⟩ := Option.map_eq_some_iff.mp (of_decide_eq_true hready.1)
  obtain ⟨hid, hp⟩ := Prod.mk.inj hphase
  simp only [Bool.and_eq_true] at hend
  obtain ⟨⟨hover, hlast⟩, hpresent⟩ := hend
  obtain ⟨b, hb, hbphase⟩ := Option.map_eq_some_iff.mp (of_decide_eq_true hover)
  have hlanded : Landed R₂ 0 a.id := by
    refine ⟨⟨b, hb, hbphase ▸ trivial⟩, fun m c hc _ => ?_⟩
    exact of_decide_eq_true (List.all_eq_true.mp hlast _ (OrderedMap.mem_of_get? hc))
  have habsent := (hclaim _ R R₁ R₂ _ 0 a err hR hs' ⟨ha, .inr hp, of_decide_eq_true hready.2⟩ hlater
    hlanded).absent
  rw [hid, hpresent] at habsent
  cases habsent

end PortRouter

end VivimOmega.Host

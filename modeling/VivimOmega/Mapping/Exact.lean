import VivimOmega.Mapping.Solve

/-! What a mapping decides: which ops are bound, to which candidates, and what is left over. -/

namespace VivimOmega.Mapping

open Library Library.Json

section Ranking

variable {a b c : CandidateLike} {pool pool' : List CandidateLike}

lemma notAfter_total (a b : CandidateLike) : NotAfter a b ∨ NotAfter b a := by
  rcases lt_trichotomy (rankOf a) (rankOf b) with hrank | hrank | hrank
  · exact .inr (.inl hrank)
  · rcases lt_trichotomy (evidenceCount a) (evidenceCount b) with hcount | hcount | hcount
    · exact .inr (.inr ⟨hrank.symm, .inl hcount⟩)
    · rcases le_total (a.id.map UInt16.toNat) (b.id.map UInt16.toNat) with hid | hid
      · exact .inl (.inr ⟨hrank, .inr ⟨hcount, hid⟩⟩)
      · exact .inr (.inr ⟨hrank.symm, .inr ⟨hcount.symm, hid⟩⟩)
    · exact .inl (.inr ⟨hrank, .inl hcount⟩)
  · exact .inl (.inl hrank)

lemma NotAfter.trans (hab : NotAfter a b) (hbc : NotAfter b c) : NotAfter a c := by
  rcases hab with hab | ⟨hab, hab'⟩
  · rcases hbc with hbc | ⟨hbc, -⟩
    · exact .inl (hbc.trans hab)
    · exact .inl (hbc ▸ hab)
  · rcases hbc with hbc | ⟨hbc, hbc'⟩
    · exact .inl (hab ▸ hbc)
    · refine .inr ⟨hab.trans hbc, ?_⟩
      rcases hab' with hab' | ⟨hab', hid⟩
      · rcases hbc' with hbc' | ⟨hbc', -⟩
        · exact .inl (hbc'.trans hab')
        · exact .inl (hbc' ▸ hab')
      · rcases hbc' with hbc' | ⟨hbc', hid'⟩
        · exact .inl (hab' ▸ hbc')
        · exact .inr ⟨hab'.trans hbc', le_trans hid hid'⟩

lemma NotAfter.antisymm (hab : NotAfter a b) (hba : NotAfter b a) : a.id = b.id := by
  rcases hab with hab | ⟨hab, hab'⟩
  · rcases hba with hba | ⟨hba, -⟩
    · exact absurd hab hba.not_gt
    · exact absurd hab (by rw [hba]; exact lt_irrefl _)
  · rcases hba with hba | ⟨-, hba'⟩
    · exact absurd hba (by rw [hab]; exact lt_irrefl _)
    · rcases hab' with hab' | ⟨hcount, hid⟩
      · rcases hba' with hba' | ⟨hba', -⟩
        · exact absurd hab' hba'.not_gt
        · exact absurd hab' (by rw [hba']; exact lt_irrefl _)
      · rcases hba' with hba' | ⟨-, hid'⟩
        · exact absurd hba' (by rw [hcount]; exact lt_irrefl _)
        · exact keyLe_antisymm hid hid'

instance instTotalNotAfter : Std.Total NotAfter := ⟨notAfter_total⟩

instance instTransNotAfter : IsTrans CandidateLike NotAfter := ⟨fun _ _ _ => NotAfter.trans⟩

lemma pickBest_none : pickBest pool = none ↔ pool = [] := by
  rw [pickBest, List.head?_eq_none_iff]
  constructor
  · intro h
    have hlength := List.length_insertionSort NotAfter pool
    rw [h] at hlength
    exact List.length_eq_zero_iff.mp hlength.symm
  · rintro rfl
    rfl

lemma pickBest_some (h : pickBest pool = some b) : b ∈ pool ∧ ∀ d ∈ pool, NotAfter b d := by
  obtain ⟨rest, hsorted⟩ := List.head?_eq_some_iff.mp h
  have hpairwise := List.pairwise_insertionSort NotAfter pool
  have hmem : ∀ d, d ∈ pool ↔ d ∈ b :: rest := by
    intro d
    rw [← hsorted, List.mem_insertionSort]
  rw [hsorted] at hpairwise
  refine ⟨(hmem b).mpr List.mem_cons_self, fun d hd => ?_⟩
  rcases List.mem_cons.mp ((hmem d).mp hd) with rfl | hd
  · exact (notAfter_total d d).elim (fun h => h) fun h => h
  · exact List.rel_of_pairwise_cons hpairwise hd

lemma pickBest_perm (hids : (pool.map CandidateLike.id).Nodup) (h : pool.Perm pool') : pickBest pool = pickBest pool' := by
  cases hbest : pickBest pool with
  | none =>
    rw [pickBest_none] at hbest
    subst hbest
    rw [List.nil_perm.mp h]
    rfl
  | some b =>
    cases hbest' : pickBest pool' with
    | none =>
      rw [pickBest_none] at hbest'
      subst hbest'
      rw [h.eq_nil] at hbest
      cases hbest
    | some b' =>
      obtain ⟨hb, hfirst⟩ := pickBest_some hbest
      obtain ⟨hb', hfirst'⟩ := pickBest_some hbest'
      have hid := (hfirst b' (h.mem_iff.mpr hb')).antisymm (hfirst' b (h.mem_iff.mp hb))
      rw [List.inj_on_of_nodup_map hids hb (h.mem_iff.mpr hb') hid]

end Ranking

section Outcomes

variable {candidates candidates' : List CandidateLike} {bp bp' : BlueprintOp} {b : Binding} {gap : MappingGap}

/-- A candidate that an op can be bound to. -/
def Suits (bp : BlueprintOp) (c : CandidateLike) : Prop := c.op = baseOp bp.op ∧ Eligible bp c

def suitable (candidates : List CandidateLike) (bp : BlueprintOp) : List CandidateLike :=
  (candidates.filter fun c => c.op = baseOp bp.op).filter (Eligible bp ·)

lemma mem_suitable {c : CandidateLike} : c ∈ suitable candidates bp ↔ c ∈ candidates ∧ Suits bp c := by
  rw [suitable, List.mem_filter, List.mem_filter, decide_eq_true_eq, decide_eq_true_eq, and_assoc, Suits]

/-- A binding to the first of the candidates that an op can be bound to, which names the others. -/
structure BoundTo (candidates : List CandidateLike) (bp : BlueprintOp) (b : Binding) (c : CandidateLike) : Prop where
  op : b.blueprintOp = bp.op
  mem : c ∈ candidates
  suits : Suits bp c
  first : ∀ d ∈ candidates, Suits bp d → NotAfter c d
  id : b.candidateId = c.id
  selector : b.selector = c.selector
  riskHint : b.riskHint = c.riskHint
  confidence : b.confidence = c.confidence
  count : b.evidenceCount = evidenceCount c
  alternatives : ∀ id, id ∈ b.alternatives ↔ ∃ d ∈ candidates, Suits bp d ∧ d.id = id ∧ id ≠ c.id

lemma bindOp_eq (candidates : List CandidateLike) (bp : BlueprintOp) : bindOp candidates bp =
    if candidates.filter (fun c => c.op = baseOp bp.op) = [] then
      .error ⟨bp.op, noCandidate (baseOp bp.op) (inferredOps candidates)⟩
    else match pickBest (suitable candidates bp) with
      | none => .error ⟨bp.op, noneEligible ((candidates.filter fun c => c.op = baseOp bp.op).map (whyNot bp))⟩
      | some best => .ok ⟨bp.op, best.id, best.selector, best.riskHint, best.confidence, evidenceCount best,
          ((suitable candidates bp).filter fun c => c.id ≠ best.id).map CandidateLike.id⟩ := rfl

lemma bindOp_ok (h : bindOp candidates bp = .ok b) : ∃ c, BoundTo candidates bp b c := by
  rw [bindOp_eq] at h
  split_ifs at h with hnone
  cases hbest : pickBest (suitable candidates bp) with
  | none =>
    rw [hbest] at h
    cases h
  | some c =>
    rw [hbest] at h
    cases h
    obtain ⟨hmem, hfirst⟩ := pickBest_some hbest
    rw [mem_suitable] at hmem
    refine ⟨c, rfl, hmem.1, hmem.2, fun d hd hsuits => hfirst d (mem_suitable.mpr ⟨hd, hsuits⟩), rfl, rfl, rfl, rfl, rfl, fun id => ?_⟩
    rw [List.mem_map]
    constructor
    · rintro ⟨d, hd, rfl⟩
      obtain ⟨hd, hne⟩ := List.mem_filter.mp hd
      obtain ⟨hd, hsuits⟩ := mem_suitable.mp hd
      exact ⟨d, hd, hsuits, rfl, of_decide_eq_true hne⟩
    · rintro ⟨d, hd, hsuits, rfl, hne⟩
      exact ⟨d, List.mem_filter.mpr ⟨mem_suitable.mpr ⟨hd, hsuits⟩, decide_eq_true hne⟩, rfl⟩

lemma bindOp_error (h : bindOp candidates bp = .error gap) : gap.missingOp = bp.op ∧ ∀ c ∈ candidates, ¬ Suits bp c := by
  have hnone : pickBest (suitable candidates bp) = none → ∀ c ∈ candidates, ¬ Suits bp c := by
    intro hbest c hc hsuits
    have hmem := mem_suitable.mpr ⟨hc, hsuits⟩
    rw [pickBest_none.mp hbest] at hmem
    cases hmem
  rw [bindOp_eq] at h
  split_ifs at h with hmatches
  · cases h
    refine ⟨rfl, hnone (pickBest_none.mpr ?_)⟩
    rw [suitable, hmatches]
    rfl
  · cases hbest : pickBest (suitable candidates bp) with
    | none =>
      rw [hbest] at h
      cases h
      exact ⟨rfl, hnone hbest⟩
    | some c =>
      rw [hbest] at h
      cases h

/-- Exactly one of the two lists has what becomes of an op. -/
lemma outcomes_once (candidates : List CandidateLike) (ops : List BlueprintOp) :
    (((ops.map (bindOp candidates)).filterMap Except.toOption).map Binding.blueprintOp ++
      ((ops.map (bindOp candidates)).filterMap gapOf).map MappingGap.missingOp).Perm (ops.map BlueprintOp.op) := by
  induction ops with
  | nil => exact .nil
  | cons bp ops ih =>
    rw [List.map_cons, List.map_cons]
    cases h : bindOp candidates bp with
    | ok b =>
      obtain ⟨c, hb⟩ := bindOp_ok h
      rw [← hb.op]
      exact ih.cons b.blueprintOp
    | error gap =>
      rw [← (bindOp_error h).1]
      exact List.perm_middle.trans (ih.cons gap.missingOp)

variable {blueprint : Blueprint}

lemma mem_bindings : b ∈ (solveMapping candidates blueprint).bindings ↔ ∃ bp ∈ blueprint.ops, bindOp candidates bp = .ok b := by
  have htoOption : ∀ x : Except MappingGap Binding, x.toOption = some b ↔ x = .ok b := by
    intro x
    cases x <;> simp [Except.toOption]
  simp only [solveMapping, List.filterMap_map, List.mem_filterMap, Function.comp_apply, htoOption]

/-- No left over candidate is found among those that are bound. -/
lemma surplusReason_left {bindings : List Binding} {c : CandidateLike} (h : c.id ∉ bindings.map Binding.candidateId) (ops : List BlueprintOp) :
    surplusReason ops bindings c = if ops.any fun bp => baseOp bp.op = c.op then ineligible c.op else notRequired c.op := by
  have hnone : (bindings.reverse.find? fun b => b.candidateId = c.id) = none := by
    rw [List.find?_eq_none]
    intro b hb heq
    exact h (List.mem_map.mpr ⟨b, List.mem_reverse.mp hb, of_decide_eq_true heq⟩)
  rw [surplusReason, hnone]
  rfl

/-- Why a candidate is left over, from its op alone. -/
def leftReason (ops : List BlueprintOp) (c : CandidateLike) : JsString :=
  if ops.any fun bp => baseOp bp.op = c.op then ineligible c.op else notRequired c.op

def leftOver (candidates : List CandidateLike) (bindings : List Binding) : List CandidateLike :=
  candidates.filter fun c => c.id ∉ bindings.map Binding.candidateId

lemma surplus_eq (candidates : List CandidateLike) (blueprint : Blueprint) : (solveMapping candidates blueprint).surplus =
    (leftOver candidates (solveMapping candidates blueprint).bindings).map fun c => ⟨c.id, c.op, leftReason blueprint.ops c⟩ := by
  refine List.map_congr_left fun c hc => ?_
  have hleft := of_decide_eq_true (List.mem_filter.mp hc).2
  rw [surplusReason_left hleft]
  rfl

end Outcomes

section Order

variable {candidates candidates' : List CandidateLike} {bp : BlueprintOp} {blueprint : Blueprint}

/-- Bindings that differ at most in the order of their alternatives. -/
structure SameBinding (b b' : Binding) : Prop where
  alternatives : b.alternatives.Perm b'.alternatives
  rest : { b with alternatives := [] } = { b' with alternatives := [] }

/-- Gaps that differ at most in the order in which they list why no candidate is eligible. -/
structure SameGap (g g' : MappingGap) : Prop where
  missingOp : g.missingOp = g'.missingOp
  reason : g.reason = g'.reason ∨
    ∃ reasons reasons', reasons.Perm reasons' ∧ g.reason = noneEligible reasons ∧ g'.reason = noneEligible reasons'

inductive SameOutcome : Except MappingGap Binding → Except MappingGap Binding → Prop
  | ok {b b' : Binding} (h : SameBinding b b') : SameOutcome (.ok b) (.ok b')
  | error {g g' : MappingGap} (h : SameGap g g') : SameOutcome (.error g) (.error g')

structure SameReport (r r' : MappingReport) : Prop where
  satisfied : r.satisfied = r'.satisfied
  bindings : List.Forall₂ SameBinding r.bindings r'.bindings
  gaps : List.Forall₂ SameGap r.gaps r'.gaps
  surplus : r.surplus.Perm r'.surplus
  stats : r.stats = r'.stats
  blueprintSource : r.blueprintSource = r'.blueprintSource

lemma inferredOps_perm (h : candidates.Perm candidates') : inferredOps candidates = inferredOps candidates' := by
  have hkeys : ∀ ops : List JsString, ((ops.dedup.map fun op => (op, ())).map Prod.fst).Nodup := by
    intro ops
    have hself : (ops.dedup.map fun op => (op, ())).map Prod.fst = ops.dedup := by simp [Function.comp_def]
    rw [hself]
    exact ops.nodup_dedup
  have hsorted : sortKeys ((candidates.map CandidateLike.op).dedup.map fun op => (op, ())) =
      sortKeys ((candidates'.map CandidateLike.op).dedup.map fun op => (op, ())) := by
    rw [sortKeys_eq_iff (hkeys _) (hkeys _)]
    intro m
    simp only [List.mem_map, List.mem_dedup, h.mem_iff]
  rw [inferredOps, inferredOps, hsorted]

lemma suitable_perm (h : candidates.Perm candidates') (bp : BlueprintOp) : (suitable candidates bp).Perm (suitable candidates' bp) :=
  (h.filter _).filter _

lemma bindOp_perm (hids : (candidates.map CandidateLike.id).Nodup) (h : candidates.Perm candidates') (bp : BlueprintOp) :
    SameOutcome (bindOp candidates bp) (bindOp candidates' bp) := by
  have hmatches : (candidates.filter fun c => c.op = baseOp bp.op).Perm (candidates'.filter fun c => c.op = baseOp bp.op) :=
    h.filter _
  have hpool : ((suitable candidates bp).map CandidateLike.id).Nodup :=
    hids.sublist ((List.filter_sublist.trans List.filter_sublist).map _)
  have hbest := pickBest_perm hpool (suitable_perm h bp)
  rw [bindOp_eq, bindOp_eq, ← inferredOps_perm h, ← hbest]
  by_cases hnone : candidates.filter (fun c => c.op = baseOp bp.op) = []
  · have hnone' : candidates'.filter (fun c => c.op = baseOp bp.op) = [] := by
      rw [hnone] at hmatches
      exact List.nil_perm.mp hmatches
    rw [if_pos hnone, if_pos hnone']
    exact .error ⟨rfl, .inl rfl⟩
  · have hnone' : candidates'.filter (fun c => c.op = baseOp bp.op) ≠ [] := by
      intro hnil
      rw [hnil] at hmatches
      exact hnone (List.perm_nil.mp hmatches)
    rw [if_neg hnone, if_neg hnone']
    cases pickBest (suitable candidates bp) with
    | none => exact .error ⟨rfl, .inr ⟨_, _, hmatches.map _, rfl, rfl⟩⟩
    | some best => exact .ok ⟨((suitable_perm h bp).filter _).map _, rfl⟩

lemma outcomes_same {outcomes outcomes' : List (Except MappingGap Binding)} (h : List.Forall₂ SameOutcome outcomes outcomes') :
    List.Forall₂ SameBinding (outcomes.filterMap Except.toOption) (outcomes'.filterMap Except.toOption) ∧
    List.Forall₂ SameGap (outcomes.filterMap gapOf) (outcomes'.filterMap gapOf) := by
  induction h with
  | nil => exact ⟨.nil, .nil⟩
  | cons hsame _ ih =>
    obtain ⟨hbindings, hgaps⟩ := ih
    cases hsame with
    | ok hb => exact ⟨.cons hb hbindings, hgaps⟩
    | error hg => exact ⟨hbindings, .cons hg hgaps⟩

lemma candidateIds_same {bs bs' : List Binding} (h : List.Forall₂ SameBinding bs bs') :
    bs.map Binding.candidateId = bs'.map Binding.candidateId := by
  induction h with
  | nil => rfl
  | cons hb _ ih => rw [List.map_cons, List.map_cons, ih, show _ = _ from congrArg Binding.candidateId hb.rest]

/-- The order of the candidates shows in the order of lists only. -/
lemma solveMapping_perm (hids : (candidates.map CandidateLike.id).Nodup) (h : candidates.Perm candidates') (blueprint : Blueprint) :
    SameReport (solveMapping candidates blueprint) (solveMapping candidates' blueprint) := by
  have houtcomes : List.Forall₂ SameOutcome (blueprint.ops.map (bindOp candidates)) (blueprint.ops.map (bindOp candidates')) := by
    rw [List.forall₂_map_left_iff, List.forall₂_map_right_iff, List.forall₂_same]
    exact fun bp _ => bindOp_perm hids h bp
  obtain ⟨hbindings, hgaps⟩ : List.Forall₂ SameBinding (solveMapping candidates blueprint).bindings
        (solveMapping candidates' blueprint).bindings ∧
      List.Forall₂ SameGap (solveMapping candidates blueprint).gaps (solveMapping candidates' blueprint).gaps :=
    outcomes_same houtcomes
  have hleft : (leftOver candidates (solveMapping candidates blueprint).bindings).Perm
      (leftOver candidates' (solveMapping candidates' blueprint).bindings) := by
    rw [leftOver, leftOver, candidateIds_same hbindings]
    exact h.filter _
  have hsurplus : (solveMapping candidates blueprint).surplus.Perm (solveMapping candidates' blueprint).surplus := by
    rw [surplus_eq, surplus_eq]
    exact hleft.map _
  have hempty : ∀ {gs gs' : List MappingGap}, List.Forall₂ SameGap gs gs' → gs.isEmpty = gs'.isEmpty := by
    intro gs gs' hgs
    cases hgs <;> rfl
  have hstats : ∀ cs, (solveMapping cs blueprint).stats = ⟨blueprint.ops.length, cs.length, (solveMapping cs blueprint).bindings.length,
      (solveMapping cs blueprint).gaps.length, (solveMapping cs blueprint).surplus.length⟩ := fun _ => rfl
  refine ⟨hempty hgaps, hbindings, hgaps, hsurplus, ?_, rfl⟩
  rw [hstats, hstats, hbindings.length_eq, hgaps.length_eq, hsurplus.length_eq, h.length_eq]

end Order

section Exactness

variable (candidates : List CandidateLike) (blueprint : Blueprint)

/-- What a mapping says of the ops and of the candidates. -/
structure Exact : Prop where
  once : ((solveMapping candidates blueprint).bindings.map Binding.blueprintOp ++
    (solveMapping candidates blueprint).gaps.map MappingGap.missingOp).Perm (blueprint.ops.map BlueprintOp.op)
  bound : ∀ bp ∈ blueprint.ops, (∃ b ∈ (solveMapping candidates blueprint).bindings, b.blueprintOp = bp.op) ↔
    ∃ c ∈ candidates, Suits bp c
  best : ∀ bp ∈ blueprint.ops, ∀ b ∈ (solveMapping candidates blueprint).bindings, b.blueprintOp = bp.op →
    ∃ c, BoundTo candidates bp b c
  shared : ∀ bp ∈ blueprint.ops, ∀ bp' ∈ blueprint.ops, ∀ b ∈ (solveMapping candidates blueprint).bindings,
    ∀ b' ∈ (solveMapping candidates blueprint).bindings, b.blueprintOp = bp.op → b'.blueprintOp = bp'.op →
      b.candidateId = b'.candidateId → baseOp bp.op = baseOp bp'.op ∧ bp.risk = bp'.risk
  partition : ((solveMapping candidates blueprint).surplus.map SurplusEntry.candidateId ++
    ((solveMapping candidates blueprint).bindings.map Binding.candidateId).dedup).Perm (candidates.map CandidateLike.id)
  counted : (blueprint.ops.Pairwise fun bp bp' => baseOp bp.op = baseOp bp'.op → bp.risk ≠ bp'.risk) →
    (solveMapping candidates blueprint).stats.bound + (solveMapping candidates blueprint).stats.surplus =
      (solveMapping candidates blueprint).stats.candidates
  unused : ∀ s ∈ (solveMapping candidates blueprint).surplus, ∃ c ∈ candidates, s.candidateId = c.id ∧ s.op = c.op ∧
    (s.reason = notRequired c.op ↔ ∀ bp ∈ blueprint.ops, baseOp bp.op ≠ c.op) ∧
    ∀ bp ∈ blueprint.ops, Suits bp c ↔
      ∃ b ∈ (solveMapping candidates blueprint).bindings, b.blueprintOp = bp.op ∧ c.id ∈ b.alternatives
  order : ∀ candidates', candidates.Perm candidates' →
    SameReport (solveMapping candidates blueprint) (solveMapping candidates' blueprint)

variable {candidates blueprint}

lemma riskText_injective : Function.Injective RiskClass.text := by
  intro r r' h
  revert h
  cases r <;> cases r' <;> decide

lemma notRequired_ne (op : JsString) : ineligible op ≠ notRequired op := by
  rw [ineligible, notRequired, List.append_assoc, List.append_assoc]
  intro heq
  have htail := List.append_cancel_left (List.append_cancel_left heq)
  exact absurd (congrArg (List.take 5) htail) (by decide)

lemma bindOp_of_binding (hops : (blueprint.ops.map BlueprintOp.op).Nodup) {bp : BlueprintOp} {b : Binding} (hbp : bp ∈ blueprint.ops)
    (hb : b ∈ (solveMapping candidates blueprint).bindings) (hop : b.blueprintOp = bp.op) : bindOp candidates bp = .ok b := by
  obtain ⟨bp', hbp', hok⟩ := mem_bindings.mp hb
  obtain ⟨c, hbound⟩ := bindOp_ok hok
  rwa [List.inj_on_of_nodup_map hops hbp hbp' (hop.symm.trans hbound.op)]

lemma binding_of_suits {bp : BlueprintOp} {c : CandidateLike} (hbp : bp ∈ blueprint.ops) (hc : c ∈ candidates) (hsuits : Suits bp c) :
    ∃ b ∈ (solveMapping candidates blueprint).bindings, bindOp candidates bp = .ok b := by
  cases h : bindOp candidates bp with
  | error gap => exact absurd hsuits ((bindOp_error h).2 c hc)
  | ok b => exact ⟨b, mem_bindings.mpr ⟨bp, hbp, h⟩, rfl⟩

lemma boundTo_unique (hids : (candidates.map CandidateLike.id).Nodup) {bp bp' : BlueprintOp} {b b' : Binding} {c c' : CandidateLike}
    (h : BoundTo candidates bp b c) (h' : BoundTo candidates bp' b' c') (hsame : b.candidateId = b'.candidateId) : c = c' :=
  List.inj_on_of_nodup_map hids h.mem h'.mem (h.id.symm.trans (hsame.trans h'.id))

/-- Two ops with one candidate are of the same base and of the same risk. -/
lemma shared_candidate (hids : (candidates.map CandidateLike.id).Nodup) {bp bp' : BlueprintOp} {b b' : Binding}
    (h : bindOp candidates bp = .ok b) (h' : bindOp candidates bp' = .ok b') (hsame : b.candidateId = b'.candidateId) :
    baseOp bp.op = baseOp bp'.op ∧ bp.risk = bp'.risk := by
  obtain ⟨c, hc⟩ := bindOp_ok h
  obtain ⟨c', hc'⟩ := bindOp_ok h'
  obtain rfl := boundTo_unique hids hc hc' hsame
  exact ⟨hc.suits.1.symm.trans hc'.suits.1, riskText_injective (hc.suits.2.2.symm.trans hc'.suits.2.2)⟩

lemma candidateIds_nodup (hids : (candidates.map CandidateLike.id).Nodup)
    (hpairs : blueprint.ops.Pairwise fun bp bp' => baseOp bp.op = baseOp bp'.op → bp.risk ≠ bp'.risk) :
    ((solveMapping candidates blueprint).bindings.map Binding.candidateId).Nodup := by
  have hbindings : (solveMapping candidates blueprint).bindings = blueprint.ops.filterMap fun bp => (bindOp candidates bp).toOption :=
    List.filterMap_map
  rw [hbindings, List.Nodup, List.pairwise_map, List.pairwise_filterMap]
  refine hpairs.imp fun {bp bp'} hpair b hb b' hb' hsame => ?_
  have hok : ∀ {x : Except MappingGap Binding} {b : Binding}, x.toOption = some b → x = .ok b := by
    intro x b hx
    cases x with
    | error gap => cases hx
    | ok b => rw [Option.some.inj hx]
  obtain ⟨hbase, hrisk⟩ := shared_candidate hids (hok hb) (hok hb') hsame
  exact hpair hbase hrisk

lemma candidates_partition (hids : (candidates.map CandidateLike.id).Nodup) (blueprint : Blueprint) :
    ((solveMapping candidates blueprint).surplus.map SurplusEntry.candidateId ++
      ((solveMapping candidates blueprint).bindings.map Binding.candidateId).dedup).Perm (candidates.map CandidateLike.id) := by
  have hsurplus : (solveMapping candidates blueprint).surplus.map SurplusEntry.candidateId =
      (leftOver candidates (solveMapping candidates blueprint).bindings).map CandidateLike.id := by
    rw [surplus_eq, List.map_map]
    rfl
  rw [hsurplus, List.perm_ext_iff_of_nodup ?_ hids]
  · intro id
    rw [List.mem_append, List.mem_dedup]
    constructor
    · rintro (hid | hid)
      · obtain ⟨c, hc, rfl⟩ := List.mem_map.mp hid
        exact List.mem_map_of_mem (List.mem_filter.mp hc).1
      · obtain ⟨b, hb, rfl⟩ := List.mem_map.mp hid
        obtain ⟨bp, -, hok⟩ := mem_bindings.mp hb
        obtain ⟨c, hc⟩ := bindOp_ok hok
        rw [hc.id]
        exact List.mem_map_of_mem hc.mem
    · intro hid
      by_cases hbound : id ∈ (solveMapping candidates blueprint).bindings.map Binding.candidateId
      · exact .inr hbound
      · obtain ⟨c, hc, rfl⟩ := List.mem_map.mp hid
        exact .inl (List.mem_map_of_mem (List.mem_filter.mpr ⟨hc, decide_eq_true hbound⟩))
  · apply List.Nodup.append
    · exact hids.sublist (List.filter_sublist.map _)
    · exact List.nodup_dedup _
    · intro id hleft hbound
      obtain ⟨c, hc, rfl⟩ := List.mem_map.mp hleft
      exact of_decide_eq_true (List.mem_filter.mp hc).2 (List.mem_dedup.mp hbound)

theorem solveMapping_exact (hids : (candidates.map CandidateLike.id).Nodup) (hops : (blueprint.ops.map BlueprintOp.op).Nodup) :
    Exact candidates blueprint where
  once := outcomes_once candidates blueprint.ops
  bound bp hbp := by
    constructor
    · rintro ⟨b, hb, hop⟩
      obtain ⟨c, hc⟩ := bindOp_ok (bindOp_of_binding hops hbp hb hop)
      exact ⟨c, hc.mem, hc.suits⟩
    · rintro ⟨c, hc, hsuits⟩
      obtain ⟨b, hb, hok⟩ := binding_of_suits hbp hc hsuits
      obtain ⟨d, hd⟩ := bindOp_ok hok
      exact ⟨b, hb, hd.op⟩
  best bp hbp b hb hop := bindOp_ok (bindOp_of_binding hops hbp hb hop)
  shared bp hbp bp' hbp' b hb b' hb' hop hop' hsame :=
    shared_candidate hids (bindOp_of_binding hops hbp hb hop) (bindOp_of_binding hops hbp' hb' hop') hsame
  partition := candidates_partition hids blueprint
  counted hpairs := by
    have hlength := (candidates_partition hids blueprint).length_eq
    rw [(candidateIds_nodup hids hpairs).dedup, List.length_append, List.length_map, List.length_map, List.length_map] at hlength
    rw [Nat.add_comm]
    exact hlength
  unused s hs := by
    rw [surplus_eq] at hs
    obtain ⟨c, hc, rfl⟩ := List.mem_map.mp hs
    obtain ⟨hc, hleft⟩ := List.mem_filter.mp hc
    refine ⟨c, hc, rfl, rfl, ?_, fun bp hbp => ?_⟩
    · dsimp only
      rw [leftReason]
      split_ifs with hany
      · obtain ⟨bp, hbp, hbase⟩ := List.any_eq_true.mp hany
        exact iff_of_false (notRequired_ne c.op) fun hno => hno bp hbp (of_decide_eq_true hbase)
      · refine iff_of_true rfl fun bp hbp hbase => hany ?_
        exact List.any_eq_true.mpr ⟨bp, hbp, decide_eq_true hbase⟩
    · constructor
      · intro hsuits
        obtain ⟨b, hb, hok⟩ := binding_of_suits hbp hc hsuits
        obtain ⟨d, hd⟩ := bindOp_ok hok
        refine ⟨b, hb, hd.op, (hd.alternatives c.id).mpr ⟨c, hc, hsuits, rfl, fun hsame => ?_⟩⟩
        exact of_decide_eq_true hleft (List.mem_map.mpr ⟨b, hb, hd.id.trans hsame.symm⟩)
      · rintro ⟨b, hb, hop, hmem⟩
        obtain ⟨d, hd⟩ := bindOp_ok (bindOp_of_binding hops hbp hb hop)
        obtain ⟨e, he, hsuits, hid, -⟩ := (hd.alternatives c.id).mp hmem
        rwa [← List.inj_on_of_nodup_map hids he hc hid]
  order candidates' h := solveMapping_perm hids h blueprint

/-- Two versions of one op, and the one candidate that there is for both. -/
def versions : Blueprint :=
  ⟨[⟨ofText "message.send@1", .externalMutation⟩, ⟨ofText "message.send@2", .externalMutation⟩], ofText "payload"⟩

def sender : CandidateLike :=
  ⟨ofText "sc-1", ofText "message.send", ofText "#send", ofText "EXTERNAL_MUTATION", some [], none⟩

theorem versions_exact : Exact [sender] versions := solveMapping_exact (List.nodup_singleton _) (by decide)

theorem versions_counted_twice : ¬ ∀ (candidates : List CandidateLike) (blueprint : Blueprint),
    (candidates.map CandidateLike.id).Nodup → (blueprint.ops.map BlueprintOp.op).Nodup →
    (solveMapping candidates blueprint).stats.bound + (solveMapping candidates blueprint).stats.surplus =
      (solveMapping candidates blueprint).stats.candidates := by
  intro h
  have hstats := h [sender] versions (List.nodup_singleton _) (by decide)
  revert hstats
  decide

end Exactness

end VivimOmega.Mapping

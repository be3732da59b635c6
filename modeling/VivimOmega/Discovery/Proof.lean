import VivimOmega.Discovery.Verify

/-! Promotion is proof: what a call of the gate reports, and what it stamps as verified. -/

namespace VivimOmega.Discovery

open Library Library.Json Vault

/-- The call came to its end, with what it was told on the way. -/
def Completed (c : VerifyCall) (past : List Exchange) (report : VerifyReport) : Prop :=
  (verify c).run.After past (.done (.ok report))

/-- The vault answers a get by whether it has that revision. -/
def AnsweredBy (vault : EvidenceRef → Prop) (past : List Exchange) : Prop :=
  ∀ r a, (⟨lookup r, a⟩ : Exchange) ∈ past → ((∃ got, a = .ok got) ↔ vault r)

/-- No two of the cited refs share a key. -/
def KeysApart (probes : List Probe) : Prop :=
  ∀ r ∈ probes.flatMap Probe.evidence, ∀ r' ∈ probes.flatMap Probe.evidence, refKey r = refKey r' → r = r'

/-- The ref that is looked up under the key of this one is there. -/
def Known (c : VerifyCall) (vault : EvidenceRef → Prop) (r : EvidenceRef) : Prop :=
  ∃ r' ∈ uniqueRefs (c.probes.flatMap Probe.evidence), vault r' ∧ refKey r' = refKey r

/-- The record of a binding goes by the slug of its op. -/
def RecordedAs (p : Provider) (b : BindingLike) (id : JsString) : Prop :=
  ∃ slug, archetypeSlugForOp b.blueprintOp = .ok slug ∧ providerRealizationId slug p.id = .ok id

def IsObject : Value → Prop
  | .object _ | .array _ => True
  | _ => False

/-- The four outputs of a call tell the same candidates as promoted. -/
structure Agreement (c : VerifyCall) (proven : JsString → Prop) (past : List Exchange) (report : VerifyReport) :
    Prop where
  results : List.Forall₂ (fun b r => r.candidateId = b.candidateId ∧ r.blueprintOp = b.blueprintOp ∧
    (r.status = .promoted ↔ proven b.candidateId)) c.bindings report.report.evaluation.results
  promoted : ∀ id, id ∈ report.report.evaluation.promoted ↔
    id ∈ c.bindings.map BindingLike.candidateId ∧ proven id
  candidates : ∀ items, c.candidates = .array items → ∃ out, report.candidates = some out ∧
    List.Forall₂ (fun v w => IsObject v → textMember v "status" ≠ some promotedText →
      (textMember w "status" = some promotedText ↔
        ∃ id ∈ textMember v "id", id ∈ c.bindings.map BindingLike.candidateId ∧ proven id)) items out
  realizations : ∀ p, c.provider = some p → List.Forall₂ (fun b row => RecordedAs p b row.1 ∧
      (row.2.status = .promoted ↔ proven b.candidateId))
    (c.bindings.filter fun b => ownProbes c.probes b.candidateId ≠ []) (past.filterMap written)

section Agreement

variable {c : VerifyCall} {past : List Exchange} {report : VerifyReport} {resolved : List JsString}
variable {vault : EvidenceRef → Prop}

lemma verdict_isSome {b : BindingLike} : (verdict (verification c.policy c.probes resolved b)).isSome = true ↔
    ownProbes c.probes b.candidateId ≠ [] := by
  have hcount : (verification c.policy c.probes resolved b).probeCount = (ownProbes c.probes b.candidateId).length := rfl
  rw [verdict]
  split_ifs with hpromoted hzero hfailed
  · have henough := (promoted_iff.mp hpromoted).enough
    have hpos := c.policy.requiredProbes_pos
    simp only [Option.isSome_some, true_iff]
    rintro hnil
    rw [hnil, List.length_nil] at henough
    omega
  · rw [hcount] at hzero
    simp [List.eq_nil_of_length_eq_zero hzero]
  · rw [hcount, List.length_eq_zero_iff] at hzero
    simp [hzero]
  · rw [hcount, List.length_eq_zero_iff] at hzero
    simp [hzero]

lemma verdict_promoted {r : CandidateVerification} {status : RealizationStatus} (h : verdict r = some status) :
    status = .promoted ↔ r.status = .promoted := by
  rw [verdict] at h
  split_ifs at h with hpromoted hzero hfailed
  · obtain rfl := Option.some.inj h
    simp [hpromoted]
  · obtain rfl := Option.some.inj h
    simp [hpromoted]
  · obtain rfl := Option.some.inj h
    simp [hpromoted]

lemma lookup_assign (members : List (JsString × Value)) (k : JsString) (v : Value) :
    (assign members k v).lookup k = some v := by
  rw [assign]
  split_ifs with h
  · induction members with
    | nil => simp at h
    | cons m rest ih =>
      by_cases hm : m.1 = k
      · simp [List.lookup, hm]
      · have hrest : k ∈ rest.map Prod.fst := by simpa [Ne.symm hm] using h
        have hne : (k == m.1) = false := by simpa using Ne.symm hm
        simpa [List.lookup, hm, hne] using ih hrest
  · induction members with
    | nil => simp [List.lookup]
    | cons m rest ih =>
      simp only [List.map_cons, List.mem_cons, not_or] at h
      have hne : (k == m.1) = false := by simpa using h.1
      simpa [List.lookup, hne] using ih h.2

lemma status_rewritten {promoted : List JsString} {v : Value} (h : IsObject v)
    (hown : textMember v "status" ≠ some promotedText) :
    textMember (rewriteCandidate promoted v) "status" = some promotedText ↔
      ∃ id ∈ textMember v "id", id ∈ promoted := by
  have hdraft : (textMember v "status").getD (ofText "DRAFT") ≠ promotedText := by
    cases hs : textMember v "status" with
    | none => decide
    | some s => exact fun heq => hown (hs.trans (congrArg some heq))
  have hread : ∀ members s, textMember (.object (assign members (ofText "status") (.string s))) "status" = some s := by
    intro members s
    rw [textMember, member, lookup_assign]
  have hrewrite : rewriteCandidate promoted v = .object (assign (spread v) (ofText "status")
      (.string (if (textMember v "id").any (· ∈ promoted) then promotedText
        else (textMember v "status").getD (ofText "DRAFT")))) := by
    cases v with
    | object members => rfl
    | array items => rfl
    | _ => exact h.elim
  have hany : (textMember v "id").any (· ∈ promoted) = true ↔ ∃ id ∈ textMember v "id", id ∈ promoted := by
    simp [Option.any_eq_true]
  rw [hrewrite, hread, ← hany]
  split_ifs with hin
  · simp [hin]
  · simp [hin, hdraft]

lemma agreement {proven : JsString → Prop}
    (hproven : ∀ id, Proven c.policy c.probes (fun r => refKey r ∈ resolved) id ↔ proven id)
    (hevaluation : report.report.evaluation = evaluatePromotion c.policy c.bindings c.probes resolved)
    (hcandidates : report.candidates = rewriteCandidates c.candidates report.report.evaluation.promoted)
    (hrows : Rows c resolved (past.filterMap written)) : Agreement c proven past report := by
  have hpromoted : ∀ id, id ∈ report.report.evaluation.promoted ↔
      id ∈ c.bindings.map BindingLike.candidateId ∧ proven id := by
    intro id
    rw [hevaluation, mem_promoted, hproven]
  refine ⟨?_, hpromoted, ?_, ?_⟩
  · rw [hevaluation]
    refine List.forall₂_map_right_iff.mpr (List.forall₂_same.mpr fun b _ => ⟨rfl, rfl, ?_⟩)
    rw [promoted_iff, hproven]
  · intro items hitems
    refine ⟨_, by rw [hcandidates, hitems]; rfl, ?_⟩
    refine List.forall₂_map_right_iff.mpr (List.forall₂_same.mpr fun v _ hobject hown => ?_)
    rw [status_rewritten hobject hown]
    simp only [hpromoted]
  · intro p hp
    rw [Rows, hp] at hrows
    dsimp only at hrows
    rw [List.filter_map, List.forall₂_map_left_iff] at hrows
    have hfilter : (c.bindings.filter ((fun r => (verdict r).isSome) ∘ verification c.policy c.probes resolved)) =
        c.bindings.filter fun b => ownProbes c.probes b.candidateId ≠ [] := by
      apply List.filter_congr
      intro b _
      rw [Function.comp_apply, Bool.eq_iff_iff, verdict_isSome, decide_eq_true_eq]
    rw [hfilter] at hrows
    refine hrows.imp fun b row hb => ?_
    obtain ⟨status, slug, hverdict, hslug, hid, hrecord⟩ := hb
    refine ⟨⟨slug, hslug, hid⟩, ?_⟩
    rw [hrecord, ← hproven, ← promoted_iff]
    exact verdict_promoted hverdict

lemma known_iff (hkeys : Keys past resolved)
    (hasked : ∀ r, (∃ a, (⟨lookup r, a⟩ : Exchange) ∈ past) ↔ r ∈ uniqueRefs (c.probes.flatMap Probe.evidence))
    (hvault : AnsweredBy vault past) (r : EvidenceRef) : refKey r ∈ resolved ↔ Known c vault r := by
  rw [hkeys]
  constructor
  · rintro ⟨r', ⟨got, hgot⟩, hkey⟩
    exact ⟨r', (hasked r').mp ⟨_, hgot⟩, (hvault r' _ hgot).mp ⟨got, rfl⟩, hkey⟩
  · rintro ⟨r', hr', hhas, hkey⟩
    obtain ⟨a, ha⟩ := (hasked r').mpr hr'
    obtain ⟨got, rfl⟩ := (hvault r' a ha).mpr hhas
    exact ⟨r', ⟨got, ha⟩, hkey⟩

lemma known_of_apart (hapart : KeysApart c.probes) {r : EvidenceRef} (hr : r ∈ c.probes.flatMap Probe.evidence) :
    Known c vault r ↔ vault r := by
  constructor
  · rintro ⟨r', hr', hhas, hkey⟩
    obtain rfl := hapart r' (mem_uniqueRefs hr') r hr hkey
    exact hhas
  · intro hhas
    obtain ⟨r', hr', hkey⟩ := uniqueRefs_covers hr
    obtain rfl := hapart r' (mem_uniqueRefs hr') r hr hkey
    exact ⟨r', hr', hhas, rfl⟩

lemma completed_agreement (h : Completed c past report) (hvault : AnsweredBy vault past) :
    Agreement c (Proven c.policy c.probes (Known c vault)) past report := by
  obtain ⟨resolved, hkeys, hasked, hevaluation, hcandidates, hrows⟩ := (verify_meets c).after h
  rw [List.nil_append] at *
  refine agreement (fun id => ?_) hevaluation hcandidates hrows
  exact Proven.congr fun pr _ r _ => known_iff hkeys hasked hvault r

end Agreement

/-- Two calls that differ in nothing but confidences, run ids and what the caller says of the candidates. -/
structure Alike (c c' : VerifyCall) : Prop where
  policy : c'.policy = c.policy
  probes : c'.probes = c.probes
  provider : c'.provider = c.provider
  bindings : c'.bindings.map (fun b => (b.blueprintOp, b.candidateId)) =
    c.bindings.map fun b => (b.blueprintOp, b.candidateId)

section Alike

variable {c c' : VerifyCall} {past past' : List Exchange} {report report' : VerifyReport} {proven : JsString → Prop}

lemma Alike.candidateIds (h : Alike c c') :
    c'.bindings.map BindingLike.candidateId = c.bindings.map BindingLike.candidateId := by
  have hmap := congrArg (List.map Prod.snd) h.bindings
  rwa [List.map_map, List.map_map] at hmap

lemma Alike.known (h : Alike c c') (vault : EvidenceRef → Prop) : Known c' vault = Known c vault := by
  funext r
  rw [Known, Known, h.probes]

open Classical in
lemma Agreement.statuses (h : Agreement c proven past report) :
    report.report.evaluation.results.map (fun r => (r.candidateId, r.status)) =
      (c.bindings.map BindingLike.candidateId).map fun id => (id, if proven id then .promoted else .draft) := by
  rw [List.map_map]
  apply congrFun (congrFun List.forall₂_eq_eq_eq _) _ |>.mp
  rw [List.forall₂_map_left_iff, List.forall₂_map_right_iff]
  refine h.results.flip.imp fun r b hb => ?_
  obtain ⟨hid, _, hstatus⟩ := hb
  rw [Function.comp_apply, hid, Prod.mk.injEq]
  refine ⟨rfl, ?_⟩
  by_cases hp : proven b.candidateId
  · rw [if_pos hp, hstatus.mpr hp]
  · rw [if_neg hp]
    cases hs : r.status with
    | promoted => exact absurd (hstatus.mp hs) hp
    | draft => rfl

end Alike

/-- A call promotes what its probes prove, and nothing that the caller says of a candidate changes that. -/
theorem promotion_is_proof {c : VerifyCall} {vault : EvidenceRef → Prop} {past : List Exchange} {report : VerifyReport}
    (h : Completed c past report) (hvault : AnsweredBy vault past) :
    (KeysApart c.probes → Agreement c (Proven c.policy c.probes vault) past report) ∧
      ∀ c' past' report', Alike c c' → Completed c' past' report' → AnsweredBy vault past' →
        (∃ proven, Agreement c proven past report ∧ Agreement c' proven past' report') ∧
          report'.report.evaluation.results.map (fun r => (r.candidateId, r.status)) =
            report.report.evaluation.results.map (fun r => (r.candidateId, r.status)) := by
  have hagree := completed_agreement h hvault
  refine ⟨fun hapart => ?_, fun c' past' report' halike h' hvault' => ?_⟩
  · obtain ⟨resolved, hkeys, hasked, hevaluation, hcandidates, hrows⟩ := (verify_meets c).after h
    rw [List.nil_append] at *
    refine agreement (fun id => Proven.congr fun pr hpr r hr => ?_) hevaluation hcandidates hrows
    rw [known_iff hkeys hasked hvault, known_of_apart hapart]
    exact List.mem_flatMap.mpr ⟨pr, hpr, hr⟩
  · have hagree' := completed_agreement h' hvault'
    rw [halike.policy, halike.probes, halike.known] at hagree'
    refine ⟨⟨_, hagree, hagree'⟩, ?_⟩
    rw [hagree.statuses, hagree'.statuses, halike.candidateIds]

namespace Sample

def policy (evidenceRequired : Bool) : PromotionPolicy where
  policyId := ofText "discovery.promotion-policy"
  version := ofText "1"
  threshold := 1
  requiredProbes := 1
  evidenceRequired := evidenceRequired
  threshold_pos := by decide
  threshold_le := by decide
  requiredProbes_pos := by decide

def candidate : JsString := ofText "c1"

def call (evidenceRequired : Bool) (evidence : List EvidenceRef) (provider : Option Provider) : VerifyCall where
  runId := ofText "r1"
  policy := policy evidenceRequired
  registry := .ok []
  mappingSatisfied := true
  bindings := [⟨ofText "message.send@1", candidate, none⟩]
  probes := [⟨candidate, true, evidence⟩]
  candidates := .undefined
  candidatesRef := none
  mappingRef := none
  provider := provider
  now := .zero

/-- A vault that takes every row, and has the refs that it says it has. -/
def answer (vault : List EvidenceRef) : (q : Request) → Reply q
  | .get ns id rev => if ⟨ns, id, rev.getD 0⟩ ∈ vault then .ok ⟨1, .null⟩ else .error ⟨.degraded, "not found"⟩
  | .append _ => .ok (1 : ℕ)

lemma answeredBy (vault : List EvidenceRef) (c : VerifyCall) :
    AnsweredBy (· ∈ vault) ((verify c).run.told (answer vault)).1 := by
  intro r a ha
  have heq : a = answer vault (lookup r) := Process.mem_told ha
  rw [heq, lookup, answer, Option.getD_some]
  split_ifs with hr
  · exact iff_of_true ⟨_, rfl⟩ hr
  · refine iff_of_false ?_ hr
    rintro ⟨got, hgot⟩
    cases hgot

lemma completed (vault : List EvidenceRef) {c : VerifyCall}
    (h : ((verify c).run.told (answer vault)).2.toBool = true) :
    ∃ report, Completed c ((verify c).run.told (answer vault)).1 report := by
  cases hend : ((verify c).run.told (answer vault)).2 with
  | error e =>
    rw [hend] at h
    cases h
  | ok report =>
    have hafter := Process.after_told (answer vault) (verify c).run
    rw [hend] at hafter
    exact ⟨report, hafter⟩

def span : EvidenceRef := ⟨ofText "captures", ofText "span:1", 1⟩

def acme : Provider := ⟨ofText "acme", .simulator, []⟩

/-- A probe that passed and cites nothing, under a policy that asks for no evidence. -/
def bare : VerifyCall := call false [] none

/-- A probe that passed and cites one span, under a policy that asks for evidence. -/
def cited : VerifyCall := call true [span] (some acme)

end Sample

/-- What was claimed of a promoted candidate: enough of its probes passed with complete evidence that resolves. -/
structure Claimed (policy : PromotionPolicy) (probes : List Probe) (vault : EvidenceRef → Prop)
    (candidateId : JsString) : Prop where
  enough : policy.requiredProbes ≤ (ownProbes probes candidateId).length
  share : ∃ counted : List Probe, counted.Sublist (ownProbes probes candidateId) ∧
    (∀ pr ∈ counted, pr.passed = true ∧ pr.evidence ≠ [] ∧ ∀ r ∈ pr.evidence, vault r) ∧
      policy.threshold ≤ score counted.length (ownProbes probes candidateId).length
  evidence : policy.evidenceRequired = true → ∀ pr ∈ ownProbes probes candidateId, ∀ r ∈ pr.evidence, vault r

lemma Sample.bare_proven (vault : EvidenceRef → Prop) : Proven bare.policy bare.probes vault candidate where
  enough := by decide
  evidence := fun h => by cases h
  share := by decide +kernel

theorem promoted_without_evidence : ¬ ∀ c vault past report, Completed c past report → AnsweredBy vault past →
    ∀ id ∈ report.report.evaluation.promoted, Claimed c.policy c.probes vault id := by
  intro hall
  have hvault := Sample.answeredBy [] Sample.bare
  obtain ⟨report, hcompleted⟩ : ∃ report, Completed Sample.bare _ report := Sample.completed [] (by decide)
  have hin := ((completed_agreement hcompleted hvault).promoted Sample.candidate).mpr ⟨by decide, Sample.bare_proven _⟩
  obtain ⟨counted, hsub, hcounted, hshare⟩ := (hall Sample.bare _ _ report hcompleted hvault _ hin).share
  have hempty : counted = [] := by
    apply List.eq_nil_iff_forall_not_mem.mpr
    intro pr hpr
    obtain ⟨_, hne, _⟩ := hcounted pr hpr
    have hown : pr ∈ Sample.bare.probes := (List.mem_filter.mp (hsub.subset hpr)).1
    rw [List.mem_singleton.mp hown] at hne
    exact hne rfl
  rw [hempty] at hshare
  exact absurd hshare (by decide +kernel)

theorem promotion_is_proof_cited : ∃ past report, Completed Sample.cited past report ∧
    Agreement Sample.cited (Proven Sample.cited.policy Sample.cited.probes (· ∈ [Sample.span])) past report := by
  have hvault := Sample.answeredBy [Sample.span] Sample.cited
  obtain ⟨report, hcompleted⟩ : ∃ report, Completed Sample.cited _ report :=
    Sample.completed [Sample.span] (by decide +kernel)
  refine ⟨_, report, hcompleted, (promotion_is_proof hcompleted hvault).1 fun r hr r' hr' _ => ?_⟩
  rw [List.mem_singleton.mp hr, List.mem_singleton.mp hr']

/-- What a row stamps as verified is found in the vault and cited by a probe that passed with complete evidence, and
nothing in it is both stamped and unmarked. -/
structure Backed (c : VerifyCall) (past : List Exchange) (record : ProviderRealization) : Prop where
  verified : ∀ r, ⟨r, true⟩ ∈ record.evidenceRefs → Found past r ∧
    ∃ pr ∈ c.probes, pr.passed = true ∧ r ∈ pr.evidence ∧ ∀ s ∈ pr.evidence, Found past s
  single : ∀ r, ⟨r, true⟩ ∈ record.evidenceRefs → ⟨r, false⟩ ∉ record.evidenceRefs

/-- The passed probes of a candidate cite what the vault has, and share no ref with the failed ones. -/
def Sound (c : VerifyCall) (past : List Exchange) (candidateId : JsString) : Prop :=
  ∀ pr ∈ ownProbes c.probes candidateId, pr.passed = true → ∀ r ∈ pr.evidence, Found past r ∧
    ∀ pr' ∈ ownProbes c.probes candidateId, pr'.passed = false → r ∉ pr'.evidence

section Stamps

variable {c : VerifyCall} {past : List Exchange}

lemma mem_stamped {probes : List Probe} {candidateId : JsString} {r : EvidenceRef} {b : Bool} :
    ⟨r, b⟩ ∈ stamped probes candidateId ↔ ∃ pr ∈ ownProbes probes candidateId, pr.passed = b ∧ r ∈ pr.evidence := by
  simp only [stamped, List.mem_flatMap, List.mem_map, ProvenanceRef.mk.injEq]
  constructor
  · rintro ⟨pr, hpr, e, he, rfl, rfl⟩
    exact ⟨pr, hpr, rfl, he⟩
  · rintro ⟨pr, hpr, rfl, hr⟩
    exact ⟨pr, hpr, r, hr, rfl, rfl⟩

lemma backed_iff {record : ProviderRealization} {candidateId : JsString}
    (h : record.evidenceRefs = stamped c.probes candidateId) : Backed c past record ↔ Sound c past candidateId := by
  constructor
  · rintro ⟨hverified, hsingle⟩ pr hpr hpassed r hr
    have hstamp : ⟨r, true⟩ ∈ record.evidenceRefs := h ▸ mem_stamped.mpr ⟨pr, hpr, hpassed, hr⟩
    refine ⟨(hverified r hstamp).1, fun pr' hpr' hfailed hr' => hsingle r hstamp ?_⟩
    exact h ▸ mem_stamped.mpr ⟨pr', hpr', hfailed, hr'⟩
  · intro hsound
    refine ⟨fun r hr => ?_, fun r hr hunmarked => ?_⟩
    · obtain ⟨pr, hpr, hpassed, hcites⟩ := mem_stamped.mp (h ▸ hr)
      exact ⟨(hsound pr hpr hpassed r hcites).1, pr, (List.mem_filter.mp hpr).1, hpassed, hcites,
        fun s hs => (hsound pr hpr hpassed s hs).1⟩
    · obtain ⟨pr, hpr, hpassed, hcites⟩ := mem_stamped.mp (h ▸ hr)
      obtain ⟨pr', hpr', hfailed, hcites'⟩ := mem_stamped.mp (h ▸ hunmarked)
      exact (hsound pr hpr hpassed r hcites).2 pr' hpr' hfailed hcites'

lemma written_eq {x : Exchange} {row : JsString × ProviderRealization} (h : written x = some row) :
    ∃ refs, x.1 = .append (.realization row.1 row.2 refs) := by
  rw [written] at h
  split at h
  · rename_i id record refs hx
    obtain rfl := Option.some.inj h
    exact ⟨refs, hx⟩
  · cases h

/-- After its first row a call looks nothing up. -/
lemma no_get_after {rest : Process Request Reply (Except String VerifyReport)} (h : (verify c).run.After past rest)
    {before more : List Exchange} {x : Exchange} (hsplit : past = before ++ x :: more) (hx : isGet x.1 = false) :
    ∀ y ∈ more, isGet y.1 = false := by
  intro y hy
  by_contra hget
  obtain ⟨more₁, more₂, rfl⟩ := List.append_of_mem hy
  have hsplit' : past = (before ++ x :: more₁) ++ y :: more₂ := by rw [hsplit, List.append_assoc, List.cons_append]
  have hasked := (verify_meets c).asked h hsplit'
  rw [List.nil_append] at hasked
  cases hq : y.1 with
  | get ns id rev =>
    rw [hq] at hasked
    exact absurd (hasked x (List.mem_append_right _ List.mem_cons_self)) (by simp [hx])
  | append row =>
    rw [hq] at hget
    exact hget rfl

/-- Every row that a call writes, whether or not the call comes to its end, is one of a binding. -/
lemma row_writes {rest : Process Request Reply (Except String VerifyReport)} (h : (verify c).run.After past rest)
    {row : JsString × ProviderRealization} (hrow : row ∈ past.filterMap written) :
    ∃ p resolved b, c.provider = some p ∧ Keys past resolved ∧ b ∈ c.bindings ∧
      Writes c p (verification c.policy c.probes resolved b) row.1 row.2 := by
  obtain ⟨x, hx, hwritten⟩ := List.mem_filterMap.mp hrow
  obtain ⟨before, more, hsplit⟩ := List.append_of_mem hx
  obtain ⟨refs, hq⟩ := written_eq hwritten
  have hget : isGet x.1 = false := by rw [hq]; rfl
  have hasked := (verify_meets c).asked h hsplit
  rw [hq, List.nil_append] at hasked
  obtain ⟨p, resolved, b, hp, hkeys, hb, hwrites⟩ := hasked
  refine ⟨p, resolved, b, hp, ?_, hb, hwrites⟩
  rw [hsplit]
  exact hkeys.append (List.forall_mem_cons.mpr ⟨hget, no_get_after h hsplit hget⟩)

end Stamps

/-- The stamps of a row are proven evidence exactly where the passed probes of its candidate are sound. -/
theorem verified_backed_iff {c : VerifyCall} {past : List Exchange}
    {rest : Process Request Reply (Except String VerifyReport)} (h : (verify c).run.After past rest) :
    ∀ row ∈ past.filterMap written, ∃ p, c.provider = some p ∧ ∃ b ∈ c.bindings, RecordedAs p b row.1 ∧
      (Backed c past row.2 ↔ Sound c past b.candidateId) := by
  intro row hrow
  obtain ⟨p, resolved, b, hp, _, hb, status, slug, _, hslug, hid, hrecord⟩ := row_writes h hrow
  refine ⟨p, hp, b, hb, ⟨slug, hslug, hid⟩, backed_iff ?_⟩
  rw [hrecord]
  rfl

theorem verified_backed_cited :
    (verify Sample.cited).run.After ((verify Sample.cited).run.told (Sample.answer [])).1
      (.done ((verify Sample.cited).run.told (Sample.answer [])).2) ∧
    ∀ row ∈ ((verify Sample.cited).run.told (Sample.answer [])).1.filterMap written,
      ∃ p, Sample.cited.provider = some p ∧ ∃ b ∈ Sample.cited.bindings, RecordedAs p b row.1 ∧
        (Backed Sample.cited ((verify Sample.cited).run.told (Sample.answer [])).1 row.2 ↔
          Sound Sample.cited ((verify Sample.cited).run.told (Sample.answer [])).1 b.candidateId) :=
  ⟨Process.after_told _ _, verified_backed_iff (Process.after_told _ _)⟩

/-- The span that the passed probe cites is not in the vault, and stamped all the same. -/
theorem verified_unresolved : ¬ ∀ c past rest, (verify c).run.After past rest →
    ∀ row ∈ past.filterMap written, Backed c past row.2 := by
  intro hall
  have hrows := hall Sample.cited _ _ (Process.after_told (Sample.answer []) _)
  have hstamped : ∃ row ∈ ((verify Sample.cited).run.told (Sample.answer [])).1.filterMap written,
      ⟨Sample.span, true⟩ ∈ row.2.evidenceRefs := by
    have hany : (((verify Sample.cited).run.told (Sample.answer [])).1.filterMap written).any
        (fun row => decide (⟨Sample.span, true⟩ ∈ row.2.evidenceRefs)) = true := by decide +kernel
    simpa using List.any_eq_true.mp hany
  obtain ⟨row, hrow, hspan⟩ := hstamped
  obtain ⟨got, hgot⟩ := ((hrows row hrow).verified Sample.span hspan).1
  have hrefused := ((Sample.answeredBy [] Sample.cited) _ _ hgot).mp ⟨got, rfl⟩
  exact absurd hrefused List.not_mem_nil

end VivimOmega.Discovery

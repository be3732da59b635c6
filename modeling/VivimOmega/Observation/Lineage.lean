import VivimOmega.Observation.Attribution

/-! The traces whose groups of requests are of one lineage each. -/

namespace VivimOmega.Observation

open Library Library.Json Perception

section Groups

variable (events : List TraceEvent) (spans : List Span) (resolve : JsString → Option JsString) (source : Source)

/-- The requests of a group, with its cause where that is one. -/
def requests (group : Group) : List TraceEvent :=
  (if group.cause.type = .network then [group.cause] else []) ++ group.networkLines.filterMap (events[·]?)

/-- The first request of a group belongs to it, and a later one when its id is there already. -/
def Belongs (group : Group) (ev : TraceEvent) : Prop :=
  requests events group = [] ∨ ∃ g ∈ requests events group, requestIdOf g ≠ none ∧ requestIdOf g = requestIdOf ev

instance instDecidableBelongs (group : Group) (ev : TraceEvent) : Decidable (Belongs events group ev) := by
  unfold Belongs
  infer_instance

/-- A request joins the group it belongs to, and otherwise starts its own. -/
def LineageAt (line : ℕ) : Prop :=
  ∀ ev group, events[line]? = some ev → ev.type = .network → groupBefore events spans resolve source line = some group →
    groupBefore events spans resolve source (line + 1) =
      some (if Belongs events group ev then { group with networkLines := group.networkLines ++ [line] } else ⟨ev, line, []⟩)

end Groups

section Condition

/-- Of two requests in succession the second has an id, and that of the first if this one opened a group. -/
def Linked (previous : Option TraceEvent) (p ev : TraceEvent) : Prop :=
  p.type = .network → ev.type = .network → requestIdOf ev ≠ none ∧
    ((∀ q ∈ previous, q.type = .network ∧ requestIdOf q ≠ requestIdOf p) → requestIdOf ev = requestIdOf p)

def Lineal (acts : List TraceEvent) : Prop :=
  ∀ before p ev after, acts = before ++ p :: ev :: after → Linked before.getLast? p ev

/-- The user actions and the requests. -/
def actions (events : List TraceEvent) : List TraceEvent := events.filter fun ev => ev.type ≠ .domUpdate

lemma lineal_concat {acts : List TraceEvent} {ev : TraceEvent} : Lineal (acts ++ [ev]) ↔
    Lineal acts ∧ ∀ before p, acts = before ++ [p] → Linked before.getLast? p ev := by
  constructor
  · intro h
    refine ⟨fun before p e after heq => h before p e (after ++ [ev]) ?_, fun before p heq => h before p ev [] ?_⟩
    · rw [heq, List.append_assoc]
      rfl
    · rw [heq, List.append_assoc]
      rfl
  · rintro ⟨hacts, hlast⟩ before p e after heq
    rcases List.eq_nil_or_concat after with rfl | ⟨after, x, rfl⟩
    · obtain ⟨hinit, hend⟩ := List.append_inj' (heq.trans (List.append_cons before p [e])) rfl
      cases hend
      exact hlast before p hinit
    · rw [List.concat_eq_append] at heq
      have hsplit : before ++ p :: e :: (after ++ [x]) = (before ++ p :: e :: after) ++ [x] := by
        rw [List.append_assoc]
        rfl
      exact hacts before p e after (List.append_inj' (heq.trans hsplit) rfl).1

end Condition

section Runs

variable {events : List TraceEvent} {spans : List Span} {resolve : JsString → Option JsString} {source : Source} {line : ℕ}
  {group : Group} {ev : TraceEvent}

lemma requests_started (h : ev.type = .network) : requests events ⟨ev, line, []⟩ = [ev] := by
  rw [requests, if_pos h]
  rfl

lemma requests_joined (h : events[line]? = some ev) :
    requests events { group with networkLines := group.networkLines ++ [line] } = requests events group ++ [ev] := by
  rw [requests, requests, List.filterMap_append, List.append_assoc]
  simp [h]

lemma networkLines_nil (hs : Since events group line) (h : requests events group = []) : group.networkLines = [] := by
  obtain ⟨-, hlines⟩ := List.append_eq_nil_iff.mp h
  by_contra hne
  obtain ⟨j, hj⟩ := List.exists_mem_of_ne_nil _ hne
  obtain ⟨-, -, ev, hev, -⟩ := (hs.networks j).mp hj
  have hnone := List.filterMap_eq_nil_iff.mp hlines j hj
  rw [hev] at hnone
  cases hnone

/-- How the open group reflects the actions so far, as long as each request went where it belongs. -/
structure Tracks (events acts : List TraceEvent) (open? : Option Group) : Prop where
  closed : open? = none ↔ acts = []
  acted : ∀ before p group, acts = before ++ [p] → open? = some group → p.type ≠ .network → requests events group = []
  requested : ∀ before p group, acts = before ++ [p] → open? = some group → p.type = .network →
    requests events group ≠ [] ∧ (∀ q ∈ requests events group, requestIdOf q = requestIdOf p) ∧
    (group.networkLines = [] ↔ ∀ q ∈ before.getLast?, q.type = .network ∧ requestIdOf q ≠ requestIdOf p)

lemma belongs_iff {before : List TraceEvent} {p : TraceEvent} (ht : Tracks events (before ++ [p]) (some group))
    (hp : p.type = .network) : Belongs events group ev ↔ requestIdOf ev ≠ none ∧ requestIdOf ev = requestIdOf p := by
  obtain ⟨hne, hsame, -⟩ := ht.requested before p group rfl rfl hp
  constructor
  · rintro (hnil | ⟨g, hg, hid, heq⟩)
    · exact absurd hnil hne
    · rw [← heq]
      exact ⟨hid, hsame g hg⟩
  · rintro ⟨hid, heq⟩
    obtain ⟨g, hg⟩ := List.exists_mem_of_ne_nil _ hne
    rw [heq, ← hsame g hg] at hid
    exact .inr ⟨g, hg, hid, (hsame g hg).trans heq.symm⟩

/-- Where a request follows one, it goes where it belongs just if the two are linked. -/
lemma joins_iff_belongs {before : List TraceEvent} {p : TraceEvent} (hs : Since events group line)
    (ht : Tracks events (before ++ [p]) (some group)) (hp : p.type = .network) (hev : ev.type = .network) :
    (joinsLineage events group ev ↔ Belongs events group ev) ↔ Linked before.getLast? p ev := by
  obtain ⟨-, hsame, hfresh⟩ := ht.requested before p group rfl rfl hp
  have hmember : ∀ j ∈ group.networkLines, ∃ g, events[j]? = some g ∧ requestIdOf g = requestIdOf p := by
    intro j hj
    obtain ⟨-, -, g, hg, -⟩ := (hs.networks j).mp hj
    exact ⟨g, hg, hsame g (List.mem_append_right _ (List.mem_filterMap.mpr ⟨j, hj, hg⟩))⟩
  have hjoins : joinsLineage events group ev ↔
      group.networkLines = [] ∨ requestIdOf ev = none ∨ requestIdOf ev = requestIdOf p := by
    constructor
    · rintro (hnil | hnone | ⟨j, hj, g, hg, -, heq⟩)
      · exact .inl hnil
      · exact .inr (.inl hnone)
      · obtain ⟨g', hg', hid⟩ := hmember j hj
        rw [Option.mem_def, hg'] at hg
        cases hg
        exact .inr (.inr (heq.symm.trans hid))
    · rintro (hnil | hnone | heq)
      · exact .inl hnil
      · exact .inr (.inl hnone)
      · by_cases hnil : group.networkLines = []
        · exact .inl hnil
        · by_cases hnone : requestIdOf ev = none
          · exact .inr (.inl hnone)
          · obtain ⟨j, hj⟩ := List.exists_mem_of_ne_nil _ hnil
            obtain ⟨g, hg, hid⟩ := hmember j hj
            rw [← heq] at hid
            exact .inr (.inr ⟨j, hj, g, hg, by rwa [hid], hid⟩)
  rw [belongs_iff ht hp, hjoins, hfresh]
  constructor
  · intro h _ _
    exact ⟨fun hnone => (h.mp (.inr (.inl hnone))).1 hnone, fun hopened => (h.mp (.inl hopened)).2⟩
  · intro h
    obtain ⟨hid, hopened⟩ := h hp hev
    constructor
    · rintro (hfirst | hnone | heq)
      · exact ⟨hid, hopened hfirst⟩
      · exact absurd hnone hid
      · exact ⟨hid, heq⟩
    · rintro ⟨-, heq⟩
      exact .inr (.inr heq)

lemma nextGroup_network (hev : ev.type = .network) : nextGroup events (some group) line ev =
    some (if joinsLineage events group ev then { group with networkLines := group.networkLines ++ [line] } else ⟨ev, line, []⟩) := by
  simp only [nextGroup, hev]
  split_ifs <;> rfl

lemma lineageAt_iff (h : events[line]? = some ev) (hev : ev.type = .network)
    (hgroup : groupBefore events spans resolve source line = some group) :
    LineageAt events spans resolve source line ↔ (joinsLineage events group ev ↔ Belongs events group ev) := by
  have hnext : groupBefore events spans resolve source (line + 1) =
      nextGroup events (groupBefore events spans resolve source line) line ev := groupBefore_succ h
  rw [hgroup, nextGroup_network hev] at hnext
  have hne : group.networkLines ++ [line] ≠ [] := List.append_ne_nil_of_right_ne_nil _ (List.cons_ne_nil _ _)
  constructor
  · intro hl
    have heq := Option.some.inj ((hl ev group h hev hgroup).symm.trans hnext)
    have hlines := congrArg Group.networkLines heq
    split_ifs at hlines with hbelongs hjoins hjoins
    · exact iff_of_true hjoins hbelongs
    · exact absurd hlines hne
    · exact absurd hlines.symm hne
    · exact iff_of_false hjoins hbelongs
  · intro hiff ev' group' h' _ hgroup'
    rw [h] at h'
    rw [hgroup] at hgroup'
    cases h'
    cases hgroup'
    rw [hnext]
    simp only [hiff]

lemma Tracks.started {acts : List TraceEvent}
    (hopened : ev.type = .network → ∀ q ∈ acts.getLast?, q.type = .network ∧ requestIdOf q ≠ requestIdOf ev) :
    Tracks events (acts ++ [ev]) (some ⟨ev, line, []⟩) where
  closed := by simp
  acted before p group hsplit hgroup hp := by
    obtain ⟨rfl, hlast⟩ := List.append_inj' hsplit rfl
    cases hlast
    cases hgroup
    rw [requests, if_neg hp]
    rfl
  requested before p group hsplit hgroup hp := by
    obtain ⟨rfl, hlast⟩ := List.append_inj' hsplit rfl
    cases hlast
    cases hgroup
    rw [requests_started hp]
    refine ⟨List.cons_ne_nil _ _, fun q hq => ?_, iff_of_true rfl (hopened hp)⟩
    rw [List.mem_singleton.mp hq]

lemma Tracks.joined {acts : List TraceEvent} (h : events[line]? = some ev) (hev : ev.type = .network)
    (hsame : ∀ q ∈ requests events group, requestIdOf q = requestIdOf ev)
    (hlast : ¬ ∀ q ∈ acts.getLast?, q.type = .network ∧ requestIdOf q ≠ requestIdOf ev) :
    Tracks events (acts ++ [ev]) (some { group with networkLines := group.networkLines ++ [line] }) where
  closed := by simp
  acted p q g hsplit _ hp := by
    obtain ⟨-, hend⟩ := List.append_inj' hsplit rfl
    cases hend
    exact absurd hev hp
  requested before p g hsplit hgroup _ := by
    obtain ⟨rfl, hend⟩ := List.append_inj' hsplit rfl
    cases hend
    cases hgroup
    rw [requests_joined h]
    have hne : ∀ l : List ℕ, l ++ [line] ≠ [] := fun l => List.append_ne_nil_of_right_ne_nil l (List.cons_ne_nil _ _)
    refine ⟨List.append_ne_nil_of_right_ne_nil _ (List.cons_ne_nil _ _), fun q hq => ?_, iff_of_false (hne _) hlast⟩
    rcases List.mem_append.mp hq with hq | hq
    · exact hsame q hq
    · rw [List.mem_singleton.mp hq]

lemma lineage_step {acts : List TraceEvent} (h : events[line]? = some ev) (hev : ev.type ≠ .domUpdate)
    (hs : ∀ group ∈ groupBefore events spans resolve source line, Since events group line)
    (ht : Tracks events acts (groupBefore events spans resolve source line)) :
    (LineageAt events spans resolve source line ↔ ∀ before p, acts = before ++ [p] → Linked before.getLast? p ev) ∧
    (LineageAt events spans resolve source line →
      Tracks events (acts ++ [ev]) (groupBefore events spans resolve source (line + 1))) := by
  rw [groupBefore_succ h]
  by_cases hnetwork : ev.type = .network
  · cases hgroup : groupBefore events spans resolve source line with
    | none =>
      rw [hgroup] at ht
      obtain rfl := ht.closed.mp rfl
      have hnext : nextGroup events none line ev = some ⟨ev, line, []⟩ := by simp only [nextGroup, hnetwork]
      rw [hnext]
      refine ⟨iff_of_true ?_ ?_, fun _ => .started fun _ q hq => ?_⟩
      · intro ev' group _ _ hg
        rw [hgroup] at hg
        cases hg
      · intro before p hsplit
        cases before <;> cases hsplit
      · cases hq
    | some group =>
      rw [hgroup] at ht
      have hsince := hs group hgroup
      obtain ⟨before, p, rfl⟩ : ∃ before p, acts = before ++ [p] := by
        rcases List.eq_nil_or_concat acts with rfl | ⟨before, p, rfl⟩
        · cases ht.closed.mpr rfl
        · exact ⟨before, p, List.concat_eq_append⟩
      have hlinked : (∀ before' p', before ++ [p] = before' ++ [p'] → Linked before'.getLast? p' ev) ↔
          Linked before.getLast? p ev := by
        constructor
        · intro hh
          exact hh before p rfl
        · intro hh before' p' hsplit
          obtain ⟨rfl, hend⟩ := List.append_inj' hsplit rfl
          cases hend
          exact hh
      rw [hlinked, nextGroup_network hnetwork, lineageAt_iff h hnetwork hgroup]
      by_cases hp : p.type = .network
      · have hiff := joins_iff_belongs hsince ht hp hnetwork
        refine ⟨hiff, fun hl => ?_⟩
        obtain ⟨hid, -⟩ := hiff.mp hl hp hnetwork
        by_cases hjoins : joinsLineage events group ev
        · obtain ⟨-, heq⟩ := (belongs_iff ht hp).mp (hl.mp hjoins)
          rw [if_pos hjoins]
          refine .joined h hnetwork (fun q hq => ?_) fun hlast => ?_
          · obtain ⟨-, hsame, -⟩ := ht.requested before p group rfl rfl hp
            exact (hsame q hq).trans heq.symm
          · exact (hlast p List.getLast?_concat).2 heq.symm
        · rw [if_neg hjoins]
          refine .started fun _ q hq => ?_
          rw [List.getLast?_concat, Option.mem_some_iff] at hq
          subst hq
          exact ⟨hp, fun heq => hjoins (hl.mpr ((belongs_iff ht hp).mpr ⟨hid, heq.symm⟩))⟩
      · have hnil := ht.acted before p group rfl rfl hp
        have hjoins : joinsLineage events group ev := .inl (networkLines_nil hsince hnil)
        refine ⟨iff_of_true (iff_of_true hjoins (.inl hnil)) fun hnet => absurd hnet hp, fun _ => ?_⟩
        rw [if_pos hjoins]
        refine .joined h hnetwork (fun q hq => ?_) fun hlast => ?_
        · rw [hnil] at hq
          cases hq
        · exact hp (hlast p List.getLast?_concat).1
  · refine ⟨iff_of_true ?_ fun _ _ _ _ hnet => absurd hnet hnetwork, fun _ => ?_⟩
    · intro ev' group h' hnet
      rw [h] at h'
      cases h'
      exact absurd hnet hnetwork
    · obtain ⟨htype, -⟩ | ⟨-, hnext⟩ | ⟨htype, -⟩ :=
        nextGroup_cases events (groupBefore events spans resolve source line) line ev
      · exact absurd htype hev
      · rw [hnext]
        exact .started fun hnet => absurd hnet hnetwork
      · exact absurd htype hnetwork

/-- Each of the first requests goes where it belongs just if the first actions are lineal. -/
lemma lineage_run (line : ℕ) (hle : line ≤ events.length) :
    ((∀ j < line, LineageAt events spans resolve source j) ↔ Lineal (actions (events.take line))) ∧
    ((∀ j < line, LineageAt events spans resolve source j) →
      Tracks events (actions (events.take line)) (groupBefore events spans resolve source line)) := by
  induction line with
  | zero =>
    refine ⟨iff_of_true (fun j hj => absurd hj (Nat.not_lt_zero j)) fun before p ev after hsplit => ?_, fun _ => ?_⟩
    · cases before <;> cases hsplit
    · refine ⟨iff_of_true rfl rfl, fun before p group hsplit => ?_, fun before p group hsplit => ?_⟩
      · cases before <;> cases hsplit
      · cases before <;> cases hsplit
  | succ line ih =>
    obtain ⟨hiff, htracks⟩ := ih (Nat.le_of_lt hle)
    have hev : events[line]? = some events[line] := List.getElem?_eq_getElem hle
    have hsplit : (∀ j < line + 1, LineageAt events spans resolve source j) ↔
        (∀ j < line, LineageAt events spans resolve source j) ∧ LineageAt events spans resolve source line :=
      Nat.forall_lt_succ_right
    rw [hsplit, List.take_succ_eq_append_getElem hle, actions, List.filter_append, ← actions]
    by_cases htype : events[line].type = .domUpdate
    · have hlineage : LineageAt events spans resolve source line := by
        intro ev group h hnet
        rw [hev] at h
        cases h
        rw [htype] at hnet
        cases hnet
      have hnext : nextGroup events (groupBefore events spans resolve source line) line events[line] =
          groupBefore events spans resolve source line := by
        simp only [nextGroup, htype]
      rw [List.filter_cons_of_neg (by simp [htype]), List.filter_nil, List.append_nil, groupBefore_succ hev, hnext]
      exact ⟨(and_iff_left hlineage).trans hiff, fun hh => htracks hh.1⟩
    · rw [List.filter_cons_of_pos (by simp [htype]), List.filter_nil, lineal_concat, ← hiff]
      have hstep := fun hh => lineage_step hev htype (groupBefore_since line (Nat.le_of_lt hle)) (htracks hh)
      exact ⟨and_congr_right fun hh => (hstep hh).1, fun hh => (hstep hh.1).2 hh.2⟩

end Runs

section Evidence

variable (syntaxError : List Char → String) (text : List Char) (trace : ParsedTrace) (resolve : JsString → Option JsString)
  (source : Source)

/-- What the edges of a trace are evidence of: the lines it was read from, and one request lineage a group. -/
structure CausalEvidence : Prop where
  events : List.Forall₂ (fun line ev => ∃ cursor, eventOf syntaxError cursor line = .ok ev)
    ((text.splitOn '\n').filter carriesEvent) trace.events
  spans : List.Forall₂ (fun line span => Cuts (Utf8.encode text) span line) ((text.splitOn '\n').filter carriesEvent) trace.spans
  accounted : ∃ cited skipped unattributed, Accounted trace.events trace.spans resolve source trace.events.length
    (deriveEdges trace.events trace.spans resolve source) cited skipped unattributed
  lineage : ∀ line < trace.events.length, LineageAt trace.events trace.spans resolve source line

def eventLine (kind : String) : String := "\x7b\"type\":\"" ++ kind ++ "\",\"targetSelector\":\"a\",\"ts\":0\x7d"

def eventOnA (kind : TraceEventType) : TraceEvent := ⟨kind, ofText "a", 0, none⟩

lemma eventsOnA {kinds : List TraceEventType} : ∀ {events : List TraceEvent},
    events.map (fun ev => (ev.type, ev.targetSelector, ev.ts, ev.detail.isNone)) =
      kinds.map (fun kind => (kind, ofText "a", 0, true)) → events = kinds.map eventOnA := by
  induction kinds with
  | nil =>
    intro events h
    exact List.map_eq_nil_iff.mp h
  | cons kind kinds ih =>
    intro events h
    obtain ⟨ev, rest, rfl, hev, hrest⟩ := List.map_eq_cons_iff.mp h
    cases ev
    simp only [Prod.mk.injEq, Option.isNone_iff_eq_none] at hev
    obtain ⟨rfl, rfl, rfl, rfl⟩ := hev
    rw [ih hrest]
    rfl

/-- A parse is known from what it shows of its events and from its spans. -/
lemma parsedOnA {kinds : List TraceEventType} {spans : List Span} {x : Except String ParsedTrace}
    (hevents : x.toOption.map (fun t => t.events.map fun ev => (ev.type, ev.targetSelector, ev.ts, ev.detail.isNone)) =
      some (kinds.map fun kind => (kind, ofText "a", 0, true)))
    (hspans : x.toOption.map ParsedTrace.spans = some spans) : x = .ok ⟨kinds.map eventOnA, spans⟩ := by
  cases x with
  | error message => cases hspans
  | ok t =>
    rw [← eventsOnA (Option.some.inj hevents), ← Option.some.inj hspans]

/-- A click, the request that it makes, and an update. -/
def answered : List Char :=
  (eventLine "click" ++ "\n" ++ eventLine "network" ++ "\n" ++ eventLine "dom-update").toList

def answeredTrace : ParsedTrace := ⟨[.click, .network, .domUpdate].map eventOnA, [⟨0, 44⟩, ⟨45, 91⟩, ⟨92, 141⟩]⟩

lemma answered_parsed : parseTrace (fun _ => "") answered = .ok answeredTrace := by
  apply parsedOnA
  · decide +kernel
  · decide +kernel

lemma answered_lineal : Lineal (actions answeredTrace.events) := by
  change Lineal (([] ++ [eventOnA .click]) ++ [eventOnA .network])
  rw [lineal_concat, lineal_concat]
  refine ⟨⟨fun before p ev after hsplit => ?_, fun before p hsplit => ?_⟩, fun before p hsplit hp => ?_⟩
  · cases before <;> cases hsplit
  · cases before <;> cases hsplit
  · obtain ⟨-, hend⟩ := List.append_inj' hsplit rfl
    cases hend
    cases hp

/-- A click, two requests that carry no id, and an update. -/
def anonymous : List Char :=
  (eventLine "click" ++ "\n" ++ eventLine "network" ++ "\n" ++ eventLine "network" ++ "\n" ++ eventLine "dom-update").toList

def anonymousTrace : ParsedTrace :=
  ⟨[.click, .network, .network, .domUpdate].map eventOnA, [⟨0, 44⟩, ⟨45, 91⟩, ⟨92, 138⟩, ⟨139, 188⟩]⟩

lemma anonymous_parsed : parseTrace (fun _ => "") anonymous = .ok anonymousTrace := by
  apply parsedOnA
  · decide +kernel
  · decide +kernel

theorem causal_evidence_iff {syntaxError : List Char → String} {text : List Char} {trace : ParsedTrace}
    (h : parseTrace syntaxError text = .ok trace) (resolve : JsString → Option JsString) (source : Source) :
    CausalEvidence syntaxError text trace resolve source ↔ Lineal (actions trace.events) := by
  obtain ⟨hevents, hspans⟩ := parseTrace_cuts h
  have hlineage : (∀ line < trace.events.length, LineageAt trace.events trace.spans resolve source line) ↔
      Lineal (actions (trace.events.take trace.events.length)) := (lineage_run _ le_rfl).1
  rw [List.take_length] at hlineage
  rw [← hlineage]
  exact ⟨fun hc => hc.lineage, fun hl => ⟨hevents, hspans, derived_accounted _ le_rfl, hl⟩⟩

theorem answered_causal_evidence : CausalEvidence (fun _ => "") answered answeredTrace some ⟨[], [], 0⟩ :=
  (causal_evidence_iff answered_parsed some ⟨[], [], 0⟩).mpr answered_lineal

/-- The second of the two requests joins the group of the first, though no id says that they are of one lineage. -/
theorem anonymous_not_causal : ¬ ∀ (syntaxError : List Char → String) (text : List Char) (trace : ParsedTrace)
    (resolve : JsString → Option JsString) (source : Source), parseTrace syntaxError text = .ok trace →
    CausalEvidence syntaxError text trace resolve source := by
  intro h
  have hc := h (fun _ => "") anonymous anonymousTrace some ⟨[], [], 0⟩ anonymous_parsed
  have hlineal := (lineage_run anonymousTrace.events.length le_rfl).1.mp hc.lineage
  obtain ⟨hid, -⟩ := hlineal [eventOnA .click] (eventOnA .network) (eventOnA .network) [] rfl rfl rfl
  exact hid rfl

end Evidence

end VivimOmega.Observation

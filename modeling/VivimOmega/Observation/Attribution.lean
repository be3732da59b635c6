import VivimOmega.Observation.Trace

/-! What each edge of a trace cites, and when the requests of a group are of one lineage. -/

namespace VivimOmega.Observation

open Library Library.Json Perception

section Spans

/-- A span cuts a line out of the bytes of a text. -/
def Cuts (bytes : List UInt8) (span : Span) (line : List Char) : Prop :=
  span.start ≤ span.stop ∧ (bytes.drop span.start).take (span.stop - span.start) = Utf8.encode line

variable {syntaxError : List Char → String}

def carriesEvent (line : List Char) : Bool := !line.all Text.isBlank

lemma parseLines_cuts {bytes : List UInt8} (lines : List (List Char)) : ∀ (before : List UInt8) (parsed : List (TraceEvent × Span)),
    parseLines syntaxError before.length lines = .ok parsed → bytes = before ++ Utf8.encode (['\n'].intercalate lines) →
    List.Forall₂ (fun line p => (∃ cursor, eventOf syntaxError cursor line = .ok p.1) ∧ Cuts bytes p.2 line)
      (lines.filter carriesEvent) parsed := by
  induction lines with
  | nil =>
    intro before parsed h _
    cases h
    exact .nil
  | cons line rest ih =>
    intro before parsed h hbytes
    obtain ⟨after, hafter⟩ : ∃ after, bytes = before ++ (Utf8.encode line ++ after) := by
      cases rest with
      | nil => exact ⟨[], by rw [hbytes, List.intercalate_singleton, List.append_nil]⟩
      | cons next rest =>
        rw [List.intercalate_cons_cons, Utf8.encode_append, Utf8.encode_append, List.append_assoc] at hbytes
        exact ⟨_, hbytes⟩
    have hrest : ∀ more, parseLines syntaxError (before.length + ((Utf8.encode line).length + 1)) rest = .ok more →
        List.Forall₂ (fun line p => (∃ cursor, eventOf syntaxError cursor line = .ok p.1) ∧ Cuts bytes p.2 line)
          (rest.filter carriesEvent) more := by
      intro more hmore
      cases rest with
      | nil =>
        cases hmore
        exact .nil
      | cons next rest =>
        refine ih (before ++ (Utf8.encode line ++ Utf8.encode ['\n'])) more ?_ ?_
        · rw [List.length_append, List.length_append]
          exact hmore
        · rw [hbytes, List.intercalate_cons_cons, Utf8.encode_append, Utf8.encode_append]
          simp only [List.append_assoc]
    rw [parseLines] at h
    by_cases hblank : line.all Text.isBlank = true
    · rw [if_pos hblank] at h
      rw [List.filter_cons_of_neg (by simp [carriesEvent, hblank])]
      exact hrest parsed h
    · rw [if_neg hblank] at h
      obtain ⟨ev, hev, h⟩ := bind_eq_ok h
      obtain ⟨more, hmore, h⟩ := bind_eq_ok h
      cases h
      rw [List.filter_cons_of_pos (by simpa [carriesEvent] using hblank)]
      refine .cons ⟨⟨_, hev⟩, Nat.le_add_right _ _, ?_⟩ (hrest more hmore)
      rw [hafter, List.drop_left, Nat.add_sub_cancel_left, List.take_left]

lemma parseTrace_cuts {text : List Char} {trace : ParsedTrace} (h : parseTrace syntaxError text = .ok trace) :
    List.Forall₂ (fun line ev => ∃ cursor, eventOf syntaxError cursor line = .ok ev)
      ((text.splitOn '\n').filter carriesEvent) trace.events ∧
    List.Forall₂ (fun line span => Cuts (Utf8.encode text) span line)
      ((text.splitOn '\n').filter carriesEvent) trace.spans := by
  obtain ⟨parsed, hparsed, h⟩ := bind_eq_ok h
  cases h
  have hcuts := parseLines_cuts (text.splitOn '\n') [] parsed hparsed (by rw [List.intercalate_splitOn, List.nil_append])
  constructor
  · exact List.forall₂_map_right_iff.mpr (hcuts.imp fun _ _ hh => hh.1)
  · exact List.forall₂_map_right_iff.mpr (hcuts.imp fun _ _ hh => hh.2)

end Spans

section Groups

variable (events : List TraceEvent) (spans : List Span) (resolve : JsString → Option JsString) (source : Source)

/-- The group that is open when the loop comes to a line. -/
def groupBefore (line : ℕ) : Option Group := (derived events spans resolve source line).group

/-- What a group holds when the loop comes to a line: every request since the action that caused it. -/
structure Since (group : Group) (line : ℕ) : Prop where
  cause : events[group.causeLine]? = some group.cause
  action : group.cause.type ≠ .domUpdate
  sorted : (group.causeLine :: group.networkLines).Pairwise (· < ·)
  below : ∀ j ∈ group.causeLine :: group.networkLines, j < line
  networks : ∀ j, j ∈ group.networkLines ↔
    group.causeLine < j ∧ j < line ∧ ∃ ev, events[j]? = some ev ∧ ev.type = .network
  latest : ∀ j ev, group.causeLine < j → j < line → events[j]? = some ev → ev.type = .network ∨ ev.type = .domUpdate

variable {events spans resolve source} {line : ℕ} {ev : TraceEvent} {group : Group}

lemma derived_succ (h : events[line]? = some ev) : derived events spans resolve source (line + 1) =
    deriveStep events spans resolve source (derived events spans resolve source line) line ev := by
  rw [derived, h]

lemma groupBefore_succ (h : events[line]? = some ev) : groupBefore events spans resolve source (line + 1) =
    nextGroup events (groupBefore events spans resolve source line) line ev := by
  rw [groupBefore, groupBefore, derived_succ h, deriveStep]
  by_cases htype : ev.type = .domUpdate
  · rw [if_neg (not_not.mpr htype)]
    cases hgroup : (derived events spans resolve source line).group with
    | none => simp only [nextGroup, htype]
    | some group =>
      dsimp only
      split <;> simp only [nextGroup, htype]
  · rw [if_pos htype]

/-- A group that an action has just started. -/
lemma Since.started (h : events[line]? = some ev) (htype : ev.type ≠ .domUpdate) : Since events ⟨ev, line, []⟩ (line + 1) where
  cause := h
  action := htype
  sorted := List.pairwise_singleton _ _
  below j hj := by
    rw [List.mem_singleton.mp hj]
    exact Nat.lt_succ_self line
  networks j := by
    constructor
    · intro hj
      cases hj
    · rintro ⟨hlt, hle, -⟩
      dsimp only at hlt
      omega
  latest j ev hlt hle := by
    dsimp only at hlt
    omega

lemma Since.joined (hs : Since events group line) (h : events[line]? = some ev) (htype : ev.type = .network) :
    Since events { group with networkLines := group.networkLines ++ [line] } (line + 1) where
  cause := hs.cause
  action := hs.action
  sorted := by
    rw [← List.cons_append, List.pairwise_append]
    refine ⟨hs.sorted, List.pairwise_singleton _ _, fun j hj k hk => ?_⟩
    rw [List.mem_singleton.mp hk]
    exact hs.below j hj
  below j hj := by
    rw [← List.cons_append, List.mem_append, List.mem_singleton] at hj
    rcases hj with hj | rfl
    · exact Nat.lt_succ_of_lt (hs.below j hj)
    · exact Nat.lt_succ_self j
  networks j := by
    have hbelow := hs.below group.causeLine List.mem_cons_self
    rw [List.mem_append, List.mem_singleton, hs.networks]
    constructor
    · rintro (⟨hlt, hle, hev⟩ | rfl)
      · exact ⟨hlt, Nat.lt_succ_of_lt hle, hev⟩
      · exact ⟨hbelow, Nat.lt_succ_self j, ev, h, htype⟩
    · rintro ⟨hlt, hle, hev⟩
      rcases Nat.lt_succ_iff_lt_or_eq.mp hle with hle | rfl
      · exact .inl ⟨hlt, hle, hev⟩
      · exact .inr rfl
  latest j other hlt hle hother := by
    rcases Nat.lt_succ_iff_lt_or_eq.mp hle with hle | rfl
    · exact hs.latest j other hlt hle hother
    · rw [h] at hother
      cases hother
      exact .inl htype

lemma Since.updated (hs : Since events group line) (h : events[line]? = some ev) (htype : ev.type = .domUpdate) :
    Since events group (line + 1) where
  cause := hs.cause
  action := hs.action
  sorted := hs.sorted
  below j hj := Nat.lt_succ_of_lt (hs.below j hj)
  networks j := by
    rw [hs.networks]
    constructor
    · rintro ⟨hlt, hle, hev⟩
      exact ⟨hlt, Nat.lt_succ_of_lt hle, hev⟩
    · rintro ⟨hlt, hle, other, hother, hnetwork⟩
      rcases Nat.lt_succ_iff_lt_or_eq.mp hle with hle | rfl
      · exact ⟨hlt, hle, other, hother, hnetwork⟩
      · rw [h] at hother
        cases hother
        rw [htype] at hnetwork
        cases hnetwork
  latest j other hlt hle hother := by
    rcases Nat.lt_succ_iff_lt_or_eq.mp hle with hle | rfl
    · exact hs.latest j other hlt hle hother
    · rw [h] at hother
      cases hother
      exact .inr htype

/-- What one event does to a group that it finds, or to none. -/
lemma nextGroup_cases (events : List TraceEvent) (open? : Option Group) (line : ℕ) (ev : TraceEvent) :
    ev.type = .domUpdate ∧ nextGroup events open? line ev = open? ∨
    ev.type ≠ .domUpdate ∧ nextGroup events open? line ev = some ⟨ev, line, []⟩ ∨
    ev.type = .network ∧ ∃ group, open? = some group ∧
      nextGroup events open? line ev = some { group with networkLines := group.networkLines ++ [line] } := by
  cases htype : ev.type with
  | domUpdate => exact .inl ⟨rfl, by simp only [nextGroup, htype]⟩
  | network =>
    cases open? with
    | none => exact .inr (.inl ⟨by simp, by simp only [nextGroup, htype]⟩)
    | some group =>
      by_cases hjoin : joinsLineage events group ev
      · exact .inr (.inr ⟨rfl, group, rfl, by simp only [nextGroup, htype, if_pos hjoin]⟩)
      · exact .inr (.inl ⟨by simp, by simp only [nextGroup, htype, if_neg hjoin]⟩)
  | click => exact .inr (.inl ⟨by simp, by simp only [nextGroup, htype]⟩)
  | type => exact .inr (.inl ⟨by simp, by simp only [nextGroup, htype]⟩)

lemma groupBefore_since (line : ℕ) (hle : line ≤ events.length) :
    ∀ group ∈ groupBefore events spans resolve source line, Since events group line := by
  induction line with
  | zero =>
    intro group hgroup
    cases hgroup
  | succ line ih =>
    intro group hgroup
    have hev : events[line]? = some events[line] := List.getElem?_eq_getElem hle
    rw [groupBefore_succ hev] at hgroup
    obtain ⟨htype, hnext⟩ | ⟨htype, hnext⟩ | ⟨htype, before, hbefore, hnext⟩ :=
      nextGroup_cases events (groupBefore events spans resolve source line) line events[line]
    · rw [hnext] at hgroup
      exact (ih (Nat.le_of_lt hle) group hgroup).updated hev htype
    · rw [hnext] at hgroup
      cases hgroup
      exact .started hev htype
    · rw [hnext] at hgroup
      cases hgroup
      exact (ih (Nat.le_of_lt hle) before hbefore).joined hev htype

variable (events spans resolve source)

/-- The first lines that update the page. -/
def updates (line : ℕ) : List ℕ := (List.range line).filter fun j => events[j]?.any fun ev => ev.type = .domUpdate

structure Cites (line : ℕ) (ev : TraceEvent) (group : Group) (e : CausalEdge) : Prop where
  trigger : e.trigger = triggerOf group.cause.type
  cause : resolve group.cause.targetSelector = some e.source
  target : resolve ev.targetSelector = some e.target
  latency : e.latencyMs = double (ev.ts - group.cause.ts)
  evidence : e.evidence = (group.causeLine :: group.networkLines ++ [line]).map (ref spans source)
  increasing : (group.causeLine :: group.networkLines ++ [line]).Pairwise (· < ·)
  since : Since events group line

def UpdateIn (P : TraceEvent → Option Group → Prop) (line : ℕ) : Prop :=
  ∃ ev, events[line]? = some ev ∧ ev.type = .domUpdate ∧ P ev (groupBefore events spans resolve source line)

def IsCited (line : ℕ) (e : CausalEdge) : Prop := UpdateIn events spans resolve source
  (fun ev open? => ∃ group ∈ open?, Cites events spans resolve source line ev group e) line

def IsSkipped (line : ℕ) : Prop := UpdateIn events spans resolve source
  (fun ev open? => ∃ group ∈ open?, resolve group.cause.targetSelector = none ∨ resolve ev.targetSelector = none) line

def IsUnattributed (line : ℕ) : Prop := UpdateIn events spans resolve source (fun _ open? => open? = none) line

/-- Each of the first updates is that of an edge, skipped or unattributed, and in one way only. -/
structure Accounted (line : ℕ) (result : DeriveResult) (cited skipped unattributed : List ℕ) : Prop where
  once : (cited ++ skipped ++ unattributed).Perm (updates events line)
  inOrder : cited.Pairwise (· < ·)
  edges : List.Forall₂ (IsCited events spans resolve source) cited result.edges
  skips : ∀ j ∈ skipped, IsSkipped events spans resolve source j
  gaps : ∀ j ∈ unattributed, IsUnattributed events spans resolve source j
  skipCount : result.skippedUnresolved = skipped.length
  gapCount : result.unattributedUpdates = unattributed.length

variable {events spans resolve source}

lemma updates_succ (h : events[line]? = some ev) : updates events (line + 1) =
    updates events line ++ if ev.type = .domUpdate then [line] else [] := by
  rw [updates, List.range_succ, List.filter_append, ← updates]
  by_cases htype : ev.type = .domUpdate <;> simp [h, htype]

lemma mem_updates {j : ℕ} (h : j ∈ updates events line) : j < line :=
  List.mem_range.mp (List.mem_filter.mp h).1

lemma Since.increasing (hs : Since events group line) :
    (group.causeLine :: group.networkLines ++ [line]).Pairwise (· < ·) := by
  rw [List.pairwise_append]
  refine ⟨hs.sorted, List.pairwise_singleton _ _, fun j hj k hk => ?_⟩
  rw [List.mem_singleton.mp hk]
  exact hs.below j hj

namespace Accounted

variable {result : DeriveResult} {cited skipped unattributed : List ℕ}

lemma other (ha : Accounted events spans resolve source line result cited skipped unattributed)
    (h : events[line]? = some ev) (htype : ev.type ≠ .domUpdate) :
    Accounted events spans resolve source (line + 1) result cited skipped unattributed :=
  { ha with
    once := by
      rw [updates_succ h, if_neg htype, List.append_nil]
      exact ha.once }

lemma cite (ha : Accounted events spans resolve source line result cited skipped unattributed) {e : CausalEdge}
    (hnext : updates events (line + 1) = updates events line ++ [line]) (he : IsCited events spans resolve source line e) :
    Accounted events spans resolve source (line + 1) { result with edges := result.edges ++ [e] }
      (cited ++ [line]) skipped unattributed :=
  { ha with
    once := by
      rw [hnext, List.append_assoc, List.append_assoc]
      refine (List.perm_append_comm.append_left cited).trans ?_
      rw [← List.append_assoc, ← List.append_assoc]
      exact ha.once.append_right [line]
    inOrder := by
      rw [List.pairwise_append]
      refine ⟨ha.inOrder, List.pairwise_singleton _ _, fun j hj k hk => ?_⟩
      rw [List.mem_singleton.mp hk]
      exact mem_updates (ha.once.subset (by simp [hj]))
    edges := List.rel_append ha.edges (.cons he .nil) }

lemma skip (ha : Accounted events spans resolve source line result cited skipped unattributed)
    (hnext : updates events (line + 1) = updates events line ++ [line]) (hline : IsSkipped events spans resolve source line) :
    Accounted events spans resolve source (line + 1) { result with skippedUnresolved := result.skippedUnresolved + 1 }
      cited (skipped ++ [line]) unattributed :=
  { ha with
    once := by
      rw [hnext, List.append_assoc, List.append_assoc]
      refine ((List.perm_append_comm.append_left skipped).append_left cited).trans ?_
      rw [← List.append_assoc, ← List.append_assoc]
      exact ha.once.append_right [line]
    skips := by
      intro j hj
      rcases List.mem_append.mp hj with hj | hj
      · exact ha.skips j hj
      · rwa [List.mem_singleton.mp hj]
    skipCount := by
      rw [List.length_append, ← ha.skipCount]
      rfl }

lemma leave (ha : Accounted events spans resolve source line result cited skipped unattributed)
    (hnext : updates events (line + 1) = updates events line ++ [line]) (hline : IsUnattributed events spans resolve source line) :
    Accounted events spans resolve source (line + 1) { result with unattributedUpdates := result.unattributedUpdates + 1 }
      cited skipped (unattributed ++ [line]) :=
  { ha with
    once := by
      rw [hnext, ← List.append_assoc]
      exact ha.once.append_right [line]
    gaps := by
      intro j hj
      rcases List.mem_append.mp hj with hj | hj
      · exact ha.gaps j hj
      · rwa [List.mem_singleton.mp hj]
    gapCount := by
      rw [List.length_append, ← ha.gapCount]
      rfl }

end Accounted

lemma derived_accounted (line : ℕ) (hle : line ≤ events.length) : ∃ cited skipped unattributed,
    Accounted events spans resolve source line (derived events spans resolve source line).toDeriveResult cited skipped unattributed := by
  induction line with
  | zero =>
    refine ⟨[], [], [], .refl _, .nil, .nil, fun j hj => ?_, fun j hj => ?_, rfl, rfl⟩
    · cases hj
    · cases hj
  | succ line ih =>
    obtain ⟨cited, skipped, unattributed, ha⟩ := ih (Nat.le_of_lt hle)
    have hev : events[line]? = some events[line] := List.getElem?_eq_getElem hle
    rw [derived_succ hev, deriveStep]
    by_cases htype : events[line].type = .domUpdate
    · rw [if_neg (not_not.mpr htype)]
      have hnext : updates events (line + 1) = updates events line ++ [line] := by rw [updates_succ hev, if_pos htype]
      cases hgroup : (derived events spans resolve source line).group with
      | none => exact ⟨cited, skipped, _, ha.leave hnext ⟨_, hev, htype, hgroup⟩⟩
      | some group =>
        have hsince : Since events group line := groupBefore_since line (Nat.le_of_lt hle) group hgroup
        dsimp only
        cases hfrom : resolve group.cause.targetSelector with
        | none => exact ⟨cited, _, unattributed, ha.skip hnext ⟨_, hev, htype, group, hgroup, .inl hfrom⟩⟩
        | some from? =>
          cases hto : resolve events[line].targetSelector with
          | none => exact ⟨cited, _, unattributed, ha.skip hnext ⟨_, hev, htype, group, hgroup, .inr hto⟩⟩
          | some to? =>
            exact ⟨_, skipped, unattributed, ha.cite hnext
              ⟨_, hev, htype, group, hgroup, rfl, hfrom, hto, rfl, rfl, hsince.increasing, hsince⟩⟩
    · rw [if_pos htype]
      exact ⟨cited, skipped, unattributed, ha.other hev htype⟩

end Groups

end VivimOmega.Observation

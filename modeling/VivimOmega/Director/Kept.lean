import VivimOmega.Director.Tick

/-! No trigger is lost: what the passes remember and what they ledger, in every interleaving. -/

namespace VivimOmega.Director.Tick

open Library Library.Json Contracts Vault Nlcl

section Logs

variable {l l' m : Log} {ns id : String}

lemma revisions_grow (h : l <+: l') : l.revisions ns id <+: l'.revisions ns id := h.filter _

lemma rev_mono (h : l <+: l') : l.rev ns id ≤ l'.rev ns id := (revisions_grow h).length_le

/-- As long as an object has no new revision, its latest one is the same. -/
lemma latest_of_rev (h : l <+: l') (hrev : l'.rev ns id = l.rev ns id) : l'.latest? ns id = l.latest? ns id := by
  have hsame : l.revisions ns id = l'.revisions ns id := (revisions_grow h).eq_of_length hrev.symm
  rw [Log.latest?, Log.latest?, hsame]

lemma rev_between (hlm : l <+: m) (hml : m <+: l') (hrev : l'.rev ns id = l.rev ns id) :
    m.rev ns id = l.rev ns id ∧ l'.rev ns id = m.rev ns id := by
  have hlow : l.rev ns id ≤ m.rev ns id := rev_mono hlm
  have hhigh : m.rev ns id ≤ l'.rev ns id := rev_mono hml
  omega

lemma selected_length (h : l <+: l') (p : Option String) : (l.selected ns p).length ≤ (l'.selected ns p).length := by
  apply (List.subperm_of_subset (selected_nodup l ns p) _).length_le
  intro id hid
  obtain ⟨hmem, hlike⟩ := List.mem_filter.mp hid
  refine List.mem_filter.mpr ⟨mem_ids.mpr fun hnil => mem_ids.mp hmem ?_, hlike⟩
  exact List.prefix_nil.mp (hnil ▸ revisions_grow h)

lemma got_cases {got : Got} (h : l.got? ns id = some got) :
    ∃ r, l.latest? ns id = some r ∧ r ∈ l.revisions ns id ∧ got.data = r.data ∧ got.metaData = r.metaData := by
  obtain ⟨r, hr, rfl⟩ := Option.map_eq_some_iff.mp h
  exact ⟨r, hr, List.mem_of_getLast? hr, rfl, rfl⟩

lemma rev_pos {got : Got} (h : l.got? ns id = some got) : 0 < l.rev ns id := by
  obtain ⟨r, -, hr, -⟩ := got_cases h
  exact List.length_pos_of_mem hr

end Logs

section Careful

variable {U : Unicode} {cfg : TickConfig} {s t u : Desk}

/-- The vault and the actions only grow. -/
structure Later (s t : Desk) : Prop where
  log : s.log <+: t.log
  acts : s.acts <+: t.acts

lemma Later.refl : Later s s := ⟨List.prefix_rfl, List.prefix_rfl⟩

lemma Later.trans (h : Later s t) (h' : Later t u) : Later s u := ⟨h.log.trans h'.log, h.acts.trans h'.acts⟩

lemma Later.fired (h : Later s t) (id : String) : s.fired id ≤ t.fired id := rev_mono h.log

/-- A message whose present revision is remembered is no trigger, or it is in the ledger. -/
structure Kept (U : Unicode) (cfg : TickConfig) (s : Desk) : Prop where
  known : ∀ id rev, s.memory id = some rev → rev ≤ s.log.rev emailNs id
  settled : ∀ id r, s.memory id = some (s.log.rev emailNs id) → s.log.latest? emailNs id = some r →
    trigger? U cfg id r.data r.metaData = none ∨ 0 < s.fired id

lemma Kept.grow (hs : Kept U cfg s) (h : Later s t) (hmemory : t.memory = s.memory) : Kept U cfg t where
  known id rev hrev := (hs.known id rev (hmemory ▸ hrev)).trans (rev_mono h.log)
  settled id r hid hr := by
    rw [hmemory] at hid
    have hsame : t.log.rev emailNs id = s.log.rev emailNs id := Nat.le_antisymm (hs.known id _ hid) (rev_mono h.log)
    rw [hsame] at hid
    rw [latest_of_rev h.log hsame] at hr
    exact (hs.settled id r hid hr).imp_right fun hpos => hpos.trans_le (h.fired id)

/-- A revision may be remembered of what is no trigger, or is in the ledger. -/
def MayRemember (U : Unicode) (cfg : TickConfig) (id : String) (rev : ℕ) (s : Desk) : Prop :=
  rev ≤ s.log.rev emailNs id ∧ ∀ r, rev = s.log.rev emailNs id → s.log.latest? emailNs id = some r →
    trigger? U cfg id r.data r.metaData = none ∨ 0 < s.fired id

lemma MayRemember.later {id : String} {rev : ℕ} (h : MayRemember U cfg id rev s) (hst : Later s t) :
    MayRemember U cfg id rev t := by
  refine ⟨h.1.trans (rev_mono hst.log), fun r hrev hr => ?_⟩
  have hmono : s.log.rev emailNs id ≤ t.log.rev emailNs id := rev_mono hst.log
  have hsame : t.log.rev emailNs id = s.log.rev emailNs id := Nat.le_antisymm (hrev ▸ h.1) hmono
  rw [latest_of_rev hst.log hsame] at hr
  exact (h.2 r (hrev.trans hsame) hr).imp_right fun hpos => hpos.trans_le (hst.fired id)

lemma Kept.remember {id : String} {rev : ℕ} (hs : Kept U cfg s) (h : MayRemember U cfg id rev s) :
    Kept U cfg { s with memory := Function.update s.memory id (some rev) } where
  known other rev' hrev := by
    by_cases hid : other = id
    · subst hid
      simp only [Function.update_self, Option.some.injEq] at hrev
      exact hrev ▸ h.1
    · simp only [Function.update_of_ne hid] at hrev
      exact hs.known other rev' hrev
  settled other r hrev hr := by
    by_cases hid : other = id
    · subst hid
      simp only [Function.update_self, Option.some.injEq] at hrev
      exact h.2 r hrev hr
    · simp only [Function.update_of_ne hid] at hrev
      exact hs.settled other r hrev hr

/-- An enabled rule that a row holds. -/
def RuleAt (log : Log) (id : String) (rule : RuleData) : Prop :=
  ∃ r, log.latest? automationNs id = some r ∧ asRule "director.tick@1" (ofText id) r.data = some rule ∧ rule.enabled = true

/-- A message that a trigger revision holds. -/
def TriggerAt (U : Unicode) (cfg : TickConfig) (log : Log) (m : TriggerMessage) : Prop :=
  ∃ e ∈ log.revisions emailNs m.id, trigger? U cfg m.id e.data e.metaData = some m

/-- A ledger row of a pass that began at a desk: it lists every rule about the sender that has stood unchanged since then,
and each of them was tried on the message. -/
def Attempted (U : Unicode) (cfg : TickConfig) (began s : Desk) (row : Revision) : Prop :=
  ∃ m outcomes now, row.id = firedPrefix ++ m.id ∧ TriggerAt U cfg s.log m ∧ row.data = ledgerRow m outcomes now ∧
    ((s.log.selected automationNs (some rulePrefix)).length ≤ tickRuleCap → ∀ name rule,
      s.log.rev automationNs (rulePrefix ++ name) = began.log.rev automationNs (rulePrefix ++ name) →
        RuleAt s.log (rulePrefix ++ name) rule → covers U m.sender rule = true →
          rule.id ∈ outcomes.map FiredOutcome.ruleId ∧ actOf m rule ∈ s.acts.drop began.acts.length)

/-- The gets of the rule rows are answered. -/
def ReadsRules (w : Weather) : Query → Prop
  | .vault (.get ..) => w.fault = .none
  | _ => True

structure Onward (U : Unicode) (cfg : TickConfig) (s t : Desk) : Prop where
  later : Later s t
  kept : Kept U cfg t

structure Promised (U : Unicode) (cfg : TickConfig) (began s t : Desk) : Prop extends Onward U cfg s t where
  rows : ∀ row, t.log = s.log ++ [row] → Attempted U cfg began s row

abbrev Careful (U : Unicode) (cfg : TickConfig) (began : Desk) {R : Type} (post : R → Desk → Prop) (p : Fire R)
    (s : Desk) : Prop :=
  p.Safe desk ReadsRules (Onward U cfg) (Promised U cfg began) (fun r t => post r t ∧ Later s t) s

variable {began : Desk} {R T : Type} {post : R → Desk → Prop} {post' : T → Desk → Prop} {p : Fire R}

lemma careful_bind {f : R → Fire T} (h : Careful U cfg began post p s)
    (hf : ∀ r t, post r t → Later s t → Careful U cfg began post' (f r) t) : Careful U cfg began post' (p.bind f) s :=
  Process.Safe.bind h fun r t hr => Process.Safe.mono (hf r t hr.1 hr.2) fun _ _ hx => ⟨hx.1, hr.2.trans hx.2⟩

lemma careful_read {q : Query} {next : q.Answer → Fire R} (hq : ∀ w t, (Desk.serve w t q).2 = t)
    (h : ∀ w t, ReadsRules w q → Kept U cfg t → Later s t → Careful U cfg began post (next (t.serve w q).1) t) :
    Careful U cfg began post (.ask q next) s := by
  intro t ht w hw
  have hsame : (desk.serve w t q).2 = t := hq w t
  rw [hsame]
  refine ⟨⟨⟨.refl, ht.kept⟩, fun row hrow => by simp at hrow⟩, ?_⟩
  exact Process.Safe.mono (h w t hw ht.kept ht.later) fun _ _ hx => ⟨hx.1, ht.later.trans hx.2⟩

lemma serve_read {q : Request} (hq : q.isAppend = false) (w : Weather) (t : Desk) : (t.serve w (.vault q)).2 = t := by
  have hlog : (port.serve w.fault t.log q).2 = t.log := by
    rw [serve_store, after_of_not_append _ hq, ite_self]
  simp only [Desk.serve, hlog]

lemma careful_remember {id : String} {rev : ℕ} {p : Fire R} (hmay : MayRemember U cfg id rev s)
    (h : ∀ t, Later s t → Careful U cfg began post p t) :
    Careful U cfg began post (.ask (.remember id rev) fun _ => p) s := by
  intro t ht w hw
  have hlater : Later t (desk.serve w t (.remember id rev)).2 := ⟨List.prefix_rfl, List.prefix_rfl⟩
  have hkept : Kept U cfg (desk.serve w t (.remember id rev)).2 := ht.kept.remember (hmay.later ht.later)
  refine ⟨⟨⟨hlater, hkept⟩, fun row hrow => by simp [desk, Desk.serve] at hrow⟩, ?_⟩
  exact Process.Safe.mono (h _ (ht.later.trans hlater)) fun _ _ hx => ⟨hx.1, (ht.later.trans hlater).trans hx.2⟩

/-- What a batch finds stood in the vault at some moment since it was asked for. -/
lemma careful_fetch (ns what : String) (ids : List String) :
    Careful U cfg began (fun b t => (∀ id got, b.found id = some (some got) →
      ∃ l : Log, s.log <+: l ∧ l <+: t.log ∧ l.got? ns id = some got) ∧ (b.error = none → ∀ id ∈ ids,
        ∃ l : Log, s.log <+: l ∧ l <+: t.log ∧ b.found id = some (l.got? ns id))) (fetch ns what ids) s := by
  rw [fetch]
  split_ifs with hids
  · refine ⟨⟨fun id got h => (Option.some_ne_none _ h.symm).elim, fun _ id hid => ?_⟩, .refl⟩
    simp [hids] at hid
  · refine careful_read (q := .vault (.getMany ns ids)) (serve_read rfl) fun w t _ _ hst => ?_
    cases hr : (port.serve w.fault t.log (.getMany ns ids)).1 with
    | error f =>
      simp only [Desk.serve, hr]
      exact ⟨⟨fun id got h => (Option.some_ne_none _ h.symm).elim, fun h => (Option.some_ne_none _ h).elim⟩, .refl⟩
    | ok rows =>
      simp only [Desk.serve, hr]
      have hanswer := (serve_ok hr).2
      rw [Log.answer] at hanswer
      split_ifs at hanswer
      obtain rfl := Except.ok.inj hanswer
      refine ⟨⟨fun id got h => ⟨t.log, hst.log, List.prefix_rfl, ?_⟩, fun _ id hid => ⟨t.log, hst.log, List.prefix_rfl,
        List.lookup_graph (fun id => t.log.got? ns id) (List.mem_eraseDups.mpr hid)⟩⟩, .refl⟩
      obtain ⟨before, after, hsplit, -⟩ := List.lookup_eq_some_iff.mp h
      have hmem : (id, some got) ∈ ids.eraseDups.map fun id => (id, t.log.got? ns id) := by
        rw [hsplit]
        exact List.mem_append_right _ List.mem_cons_self
      obtain ⟨id', -, heq⟩ := List.mem_map.mp hmem
      obtain ⟨rfl, hgot⟩ := Prod.mk.inj heq
      exact hgot

/-- A trigger that was read, and the revision that its row was scanned at. -/
structure Seen (U : Unicode) (cfg : TickConfig) (s : Desk) (job : TriggerJob) : Prop where
  id : job.message.id = job.row.id
  rev : job.row.rev ≤ s.log.rev emailNs job.row.id
  trigger : TriggerAt U cfg s.log job.message

lemma TriggerAt.later {m : TriggerMessage} (h : TriggerAt U cfg s.log m) (hst : Later s t) : TriggerAt U cfg t.log m := by
  obtain ⟨e, he, htrigger⟩ := h
  exact ⟨e, (revisions_grow hst.log).subset he, htrigger⟩

lemma Seen.later {job : TriggerJob} (h : Seen U cfg s job) (hst : Later s t) : Seen U cfg t job :=
  ⟨h.id, h.rev.trans (rev_mono hst.log), h.trigger.later hst⟩

lemma Seen.ledgered {job : TriggerJob} (h : Seen U cfg s job) (hfired : 0 < s.fired job.message.id) :
    MayRemember U cfg job.row.id job.row.rev s :=
  ⟨h.rev, fun _ _ _ => .inr (h.id ▸ hfired)⟩

/-- The body that was read for a row is of the scanned revision or a later one. -/
structure Glimpse (s : Desk) (row : Listed) (got : Got) (l : Log) : Prop where
  rev : row.rev ≤ l.rev emailNs row.id
  log : l <+: s.log
  got : l.got? emailNs row.id = some got

lemma Glimpse.mayRemember {row : Listed} {got : Got} {l : Log} (h : Glimpse s row got l)
    (hnone : trigger? U cfg row.id got.data got.metaData = none) : MayRemember U cfg row.id row.rev s := by
  refine ⟨h.rev.trans (rev_mono h.log), fun r hrev hr => .inl ?_⟩
  have hsame : s.log.rev emailNs row.id = l.rev emailNs row.id :=
    Nat.le_antisymm (hrev ▸ h.rev) (rev_mono h.log)
  obtain ⟨r', hr', -, hdata, hmeta⟩ := got_cases h.got
  rw [latest_of_rev h.log hsame, hr'] at hr
  obtain rfl := Option.some.inj hr
  rw [← hdata, ← hmeta]
  exact hnone

/-- What was read for the rows was read of revisions from the scanned ones on. -/
def Glimpsed (s : Desk) (found : String → Option (Option Got)) (rows : List Listed) : Prop :=
  ∀ row ∈ rows, ∀ got, found row.id = some (some got) → ∃ l, Glimpse s row got l

lemma Glimpsed.later {found : String → Option (Option Got)} {rows : List Listed} (h : Glimpsed s found rows)
    (hst : Later s t) : Glimpsed t found rows := by
  intro row hrow got hgot
  obtain ⟨l, hl⟩ := h row hrow got hgot
  exact ⟨l, hl.rev, hl.log.trans hst.log, hl.got⟩

lemma jobAt_cases {found : String → Option (Option Got)} {row : Listed} {job : TriggerJob}
    (h : jobAt U cfg found row = some job) : ∃ got, found row.id = some (some got) ∧
      ∃ m, trigger? U cfg row.id got.data got.metaData = some m ∧ ⟨row, m⟩ = job := by
  obtain ⟨got, hgot, h⟩ := Option.bind_eq_some_iff.mp h
  obtain ⟨m, hm, hjob⟩ := Option.map_eq_some_iff.mp h
  exact ⟨got, Option.join_eq_some_iff.mp hgot, m, hm, hjob⟩

lemma Glimpsed.seen {found : String → Option (Option Got)} {rows : List Listed} {job : TriggerJob}
    (h : Glimpsed s found rows) (hjob : job ∈ rows.filterMap (jobAt U cfg found)) : Seen U cfg s job := by
  obtain ⟨row, hrow, hat⟩ := List.mem_filterMap.mp hjob
  obtain ⟨got, hgot, m, htrigger, rfl⟩ := jobAt_cases hat
  obtain ⟨l, hl⟩ := h row hrow got hgot
  obtain ⟨r, -, hr, hdata, hmeta⟩ := got_cases hl.got
  have hid : m.id = row.id := trigger_id htrigger
  refine ⟨hid, hl.rev.trans (rev_mono hl.log), r, ?_, ?_⟩
  · rw [hid]
    exact (revisions_grow hl.log).subset hr
  · rw [hid, ← hdata, ← hmeta]
    exact htrigger

lemma careful_sift (found : String → Option (Option Got)) (rows : List Listed) (hfound : Glimpsed s found rows) :
    Careful U cfg began (fun x _ => x.triggers = rows.filterMap (jobAt U cfg found)) (sift U cfg found rows) s := by
  induction rows generalizing s with
  | nil => exact ⟨rfl, .refl⟩
  | cons row rest ih =>
    have hrest : Glimpsed s found rest := fun other hother => hfound other (List.mem_cons_of_mem _ hother)
    rw [sift]
    cases hrow : found row.id with
    | none =>
      have hjob : jobAt U cfg found row = none := by simp [jobAt, hrow]
      rw [List.filterMap_cons_none hjob]
      exact ih hrest
    | some got? =>
      cases got? with
      | none =>
        have hjob : jobAt U cfg found row = none := by simp [jobAt, hrow]
        rw [List.filterMap_cons_none hjob]
        exact careful_bind (ih hrest) fun x t hx _ => ⟨hx, .refl⟩
      | some got =>
        dsimp only
        cases htrigger : trigger? U cfg row.id got.data got.metaData with
        | none =>
          have hjob : jobAt U cfg found row = none := by simp [jobAt, hrow, htrigger]
          rw [List.filterMap_cons_none hjob]
          -- the row as it was scanned is no trigger, so its revision may be remembered
          obtain ⟨l, hl⟩ := hfound row List.mem_cons_self got hrow
          exact careful_remember (hl.mayRemember htrigger) fun t hst => ih (hrest.later hst)
        | some m =>
          have hjob : jobAt U cfg found row = some ⟨row, m⟩ := by simp [jobAt, hrow, htrigger]
          rw [List.filterMap_cons_some hjob]
          exact careful_bind (ih hrest) fun x t hx _ => ⟨congrArg (_ :: ·) hx, .refl⟩

lemma careful_skipLedgered (found : String → Option (Option Got)) (jobs : List TriggerJob)
    (hseen : ∀ job ∈ jobs, Seen U cfg s job)
    (hfound : ∀ job ∈ jobs, isLedgered found job = true → 0 < s.fired job.message.id) :
    Careful U cfg began (fun x _ => x = jobs.filter fun job => !isLedgered found job) (skipLedgered found jobs) s := by
  induction jobs generalizing s with
  | nil => exact ⟨rfl, .refl⟩
  | cons job rest ih =>
    obtain ⟨hjob, hrest⟩ := List.forall_mem_cons.mp hseen
    obtain ⟨hfired, hfiredRest⟩ := List.forall_mem_cons.mp hfound
    rw [skipLedgered]
    cases hledgered : isLedgered found job with
    | true =>
      rw [if_pos rfl, List.filter_cons_of_neg (by simp [hledgered])]
      refine careful_remember (hjob.ledgered (hfired hledgered)) fun t hst => ?_
      apply ih
      · exact fun other hother => (hrest other hother).later hst
      · exact fun other hother h => (hfiredRest other hother h).trans_le (hst.fired _)
    | false =>
      rw [if_neg Bool.false_ne_true, List.filter_cons_of_pos (by simp [hledgered])]
      exact careful_bind (ih hrest hfiredRest) fun x t hx _ => ⟨congrArg (job :: ·) hx, .refl⟩

/-- Of the rows that stand unchanged, every enabled rule is loaded. -/
lemma careful_getRules (rows : List Listed) :
    Careful U cfg began (fun rules t => ∀ row ∈ rows, ∀ rule,
      t.log.rev automationNs row.id = s.log.rev automationNs row.id → RuleAt t.log row.id rule → rule ∈ rules)
        (getRules rows) s := by
  induction rows generalizing s with
  | nil => exact ⟨fun row hrow => absurd hrow List.not_mem_nil, .refl⟩
  | cons row rest ih =>
    rw [getRules]
    refine careful_read (q := .vault (.get automationNs row.id)) (serve_read rfl) fun w t hw _ hst => ?_
    refine careful_bind ih fun rules u hrules htu => ⟨fun other hother rule hrev hat => ?_, .refl⟩
    obtain ⟨hst', htu'⟩ := rev_between hst.log htu.log hrev
    obtain rfl | hold := List.mem_cons.mp hother
    · obtain ⟨r, hr, hrule, henabled⟩ := hat
      rw [latest_of_rev htu.log htu'] at hr
      apply List.mem_append_left
      have hfault : w.fault = .none := hw
      have hreply : (t.serve w (.vault (.get automationNs other.id))).1 =
          .ok ⟨t.log.rev automationNs other.id, r.data, r.metaData⟩ := by
        simp only [Desk.serve, hfault]
        change t.log.answer (.get automationNs other.id) = _
        rw [Log.answer, Log.got?, hr]
        rfl
      rw [hreply]
      simp [enabledRule, hrule, henabled]
    · exact List.mem_append_right _ (hrules other hold rule htu' hat)

/-- The rules that have stood unchanged since a pass began are all loaded. -/
def Loads (began s : Desk) (l : Loaded) : Prop :=
  (s.log.selected automationNs (some rulePrefix)).length ≤ tickRuleCap → ∀ name rule,
    s.log.rev automationNs (rulePrefix ++ name) = began.log.rev automationNs (rulePrefix ++ name) →
      RuleAt s.log (rulePrefix ++ name) rule → rule ∈ l.rules

lemma RuleAt.before {id : String} {rule : RuleData} (h : RuleAt t.log id rule) (hst : Later s t)
    (hrev : t.log.rev automationNs id = s.log.rev automationNs id) : RuleAt s.log id rule := by
  obtain ⟨r, hr, hrule⟩ := h
  rw [latest_of_rev hst.log hrev] at hr
  exact ⟨r, hr, hrule⟩

lemma Loads.later {l : Loaded} (h : Loads began s l) (hbegan : Later began s) (hst : Later s t) : Loads began t l := by
  intro hcap name rule hrev hat
  obtain ⟨hbs, hsu⟩ := rev_between hbegan.log hst.log hrev
  exact h ((selected_length hst.log _).trans hcap) name rule hbs (hat.before hst hsu)

/-- Either nothing was loaded, and no rule row was seen, or all that has to be. -/
def Usable (began s : Desk) (l : Loaded) : Prop := l.rules = [] ∧ l.total = 0 ∨ Loads began s l

/-- No rule row stood when the pass began. -/
def Ruleless (began : Desk) : Prop := began.log.selected automationNs (some rulePrefix) = []

lemma careful_load (hbegan : Later began s) : Careful U cfg began
    (fun l t => Usable began t l ∧ (l.error = none → l.total = 0 → Ruleless began)) loadEnabledRules s := by
  refine careful_read (q := .vault (.query automationNs (some rulePrefix))) (serve_read rfl) fun w t _ _ hst => ?_
  cases hr : (port.serve w.fault t.log (.query automationNs (some rulePrefix))).1 with
  | error f =>
    simp only [Desk.serve, hr]
    exact ⟨⟨.inl ⟨rfl, rfl⟩, fun h => (Option.some_ne_none _ h).elim⟩, .refl⟩
  | ok rows =>
    simp only [Desk.serve, hr]
    obtain rfl := Except.ok.inj (serve_ok hr).2
    refine careful_bind (careful_getRules _) fun rules u hrules htu =>
      ⟨⟨.inr fun hcap name rule hrev hat => ?_, fun _ htotal => ?_⟩, .refl⟩
    · obtain ⟨hbt, htu'⟩ := rev_between (hbegan.trans hst).log htu.log hrev
      have hlisted : rulePrefix ++ name ∈ t.log.selected automationNs (some rulePrefix) := by
        obtain ⟨r, hr', -⟩ := hat.before htu htu'
        exact mem_selected (List.ne_nil_of_mem (List.mem_of_getLast? hr'))
      have hlength : ((t.log.selected automationNs (some rulePrefix)).map fun id =>
          (⟨id, t.log.rev automationNs id⟩ : Listed)).length ≤ tickRuleCap := by
        rw [List.length_map]
        exact (selected_length htu.log _).trans hcap
      rw [List.take_of_length_le hlength] at hrules
      rw [List.mem_insertionSort]
      exact hrules _ (List.mem_map_of_mem hlisted) rule htu' hat
    · have hle : (began.log.selected automationNs (some rulePrefix)).length ≤
          (t.log.selected automationNs (some rulePrefix)).length := selected_length (hbegan.trans hst).log _
      simp only [List.length_take, List.length_map, tickRuleCap] at htotal
      exact List.eq_nil_of_length_eq_zero (by omega)

lemma outcomeOf_ruleId (rule : RuleData) (sent : Sent) : (outcomeOf rule sent).ruleId = rule.id := by
  cases sent <;> rfl

lemma mem_drop_later {a : Act} {n : ℕ} (h : a ∈ s.acts.drop n) (hst : Later s t) : a ∈ t.acts.drop n := by
  obtain ⟨more, hmore⟩ := hst.acts
  rw [← hmore, List.drop_append]
  exact List.mem_append_left _ h

/-- Every rule is tried, and its outcome is listed. -/
lemma careful_fireRules (message : TriggerMessage) (rules : List RuleData) (n : ℕ) (hn : n ≤ s.acts.length) :
    Careful U cfg began (fun outcomes t => outcomes.map FiredOutcome.ruleId = rules.map RuleData.id ∧
      ∀ rule ∈ rules, actOf message rule ∈ t.acts.drop n) (fireRules message rules) s := by
  induction rules generalizing s with
  | nil => exact ⟨⟨rfl, fun rule hrule => absurd hrule List.not_mem_nil⟩, .refl⟩
  | cons rule rest ih =>
    simp only [fireRules, fireRule, Process.bind_ask, Process.bind_done]
    intro t ht w hw
    have hlater : Later t { t with acts := t.acts ++ [actOf message rule] } := ⟨List.prefix_rfl, List.prefix_append _ _⟩
    have hlength : n ≤ t.acts.length := hn.trans ht.later.acts.length_le
    have hacted : actOf message rule ∈ (t.acts ++ [actOf message rule]).drop n := by
      rw [List.drop_append_of_le_length hlength]
      exact List.mem_append_right _ (List.mem_singleton_self _)
    refine ⟨⟨⟨hlater, ht.kept.grow hlater rfl⟩, fun row hrow => by simp [desk, Desk.serve] at hrow⟩, ?_⟩
    have hrest : Careful U cfg began (fun outcomes u => outcomes.map FiredOutcome.ruleId = rest.map RuleData.id ∧
        ∀ rule ∈ rest, actOf message rule ∈ u.acts.drop n) (fireRules message rest)
          { t with acts := t.acts ++ [actOf message rule] } :=
      ih (hlength.trans hlater.acts.length_le)
    refine Process.Safe.bind hrest fun outcomes u hu => ?_
    refine ⟨⟨?_, fun other hother => ?_⟩, (ht.later.trans hlater).trans hu.2⟩
    · exact congrArg₂ List.cons (outcomeOf_ruleId rule _) hu.1.1
    · obtain rfl | hold := List.mem_cons.mp hother
      · exact mem_drop_later (s := { t with acts := t.acts ++ [actOf message other] }) hacted hu.2
      · exact hu.1.2 other hold

lemma serve_append {w : Weather} {ns id : String} {data metaData : Value} :
    (desk.serve w t (.vault (.append ns id data metaData))).2 =
      { t with log := if w.fault.executes then t.log ++ [⟨ns, id, data, metaData⟩] else t.log } := by
  change ({ t with log := (port.serve w.fault t.log (.append ns id data metaData)).2 } : Desk) = _
  rw [serve_store]
  rfl

/-- The ledger row of a job may be written once it is true. -/
lemma careful_ledger (clock : Clock) (loaded : Loaded) (job : TriggerJob) (outcomes : List FiredOutcome)
    (hseen : Seen U cfg s job)
    (hrow : ∀ t, Later s t → Attempted U cfg began t ⟨automationNs, firedPrefix ++ job.message.id,
      ledgerRow job.message outcomes (clock.ledgered job.message.id), firedMeta⟩) :
    Careful U cfg began (fun p t => p.error = none → 0 < t.fired job.message.id) (ledger clock loaded job outcomes) s := by
  intro t ht w hw
  obtain ⟨u, hu⟩ : ∃ u, u = (desk.serve w t (.vault (.append automationNs (firedPrefix ++ job.message.id)
    (ledgerRow job.message outcomes (clock.ledgered job.message.id)) firedMeta))).2 := ⟨_, rfl⟩
  rw [← hu]
  rw [serve_append] at hu
  have hlater : Later t u := by
    rw [hu]
    constructor
    · dsimp only
      split_ifs
      · exact List.prefix_append _ _
      · exact List.prefix_rfl
    · exact List.prefix_rfl
  have hkept : Kept U cfg u := by
    apply ht.kept.grow hlater
    rw [hu]
  refine ⟨⟨⟨hlater, hkept⟩, fun row hrow' => ?_⟩, ?_⟩
  · rw [hu] at hrow'
    dsimp only at hrow'
    split_ifs at hrow'
    · obtain rfl := List.singleton_inj.mp (List.append_cancel_left hrow')
      exact hrow t ht.later
    · simp at hrow'
  · beta_reduce
    split
    · rename_i rev hr
      have hfault : w.fault = .none := (serve_ok (show (port.serve w.fault t.log (.append automationNs
        (firedPrefix ++ job.message.id) (ledgerRow job.message outcomes (clock.ledgered job.message.id))
          firedMeta)).1 = .ok rev from hr)).1
      have hfired : 0 < u.fired job.message.id := by
        have hexecutes : w.fault.executes = true := by
          rw [hfault]
          rfl
        rw [hu, hexecutes, if_pos rfl, fired_append, if_pos ⟨rfl, rfl⟩]
        exact Nat.succ_pos _
      have hremember := (hseen.later (ht.later.trans hlater)).ledgered hfired
      have hnext : Careful U cfg began (fun _ v => 0 < v.fired job.message.id)
          (.ask (.remember job.row.id job.row.rev) fun _ =>
            .done (⟨1, outcomes.map fun o => (job.message.id, o), loaded.error⟩ : Progress)) u :=
        careful_remember hremember fun v huv => ⟨hfired.trans_le (huv.fired _), .refl⟩
      exact Process.Safe.mono hnext fun _ _ hx => ⟨fun _ => hx.1, (ht.later.trans hlater).trans hx.2⟩
    · refine ⟨fun h => ?_, ht.later.trans hlater⟩
      cases hloaded : loaded.error <;> simp [hloaded] at h

lemma careful_runJob {clock : Clock} {loaded : Loaded} {job : TriggerJob} (hbegan : Later began s)
    (hseen : Seen U cfg s job) (hload : Usable began s loaded)
    (hrules : loaded.error = none → loaded.total = 0 → Ruleless began) :
    Careful U cfg began (fun p t => p.error = none → 0 < t.fired job.message.id ∨ Ruleless began)
      (runJob U clock loaded job) s := by
  rw [runJob]
  obtain ⟨hnone, htotal⟩ | hloads := hload
  · simp only [hnone, List.filter_nil, fireRules, Process.bind_done, htotal, and_self, if_true]
    exact ⟨fun h => .inr (hrules h htotal), .refl⟩
  · refine careful_bind (careful_fireRules _ _ began.acts.length hbegan.acts.length_le) fun outcomes t ht hst => ?_
    split_ifs with hskip
    · exact ⟨fun h => .inr (hrules h hskip.2), .refl⟩
    · refine Process.Safe.mono (careful_ledger _ _ _ _ (hseen.later hst) ?_) fun p u hp => ⟨fun h => .inl (hp.1 h), hp.2⟩
      intro u htu
      refine ⟨job.message, outcomes, _, rfl, (hseen.later (hst.trans htu)).trigger, rfl, fun hcap name rule hrev hat hcovers => ?_⟩
      have hmem : rule ∈ loaded.rules.filter (covers U job.message.sender) :=
        List.mem_filter.mpr ⟨hloads.later hbegan (hst.trans htu) hcap name rule hrev hat, hcovers⟩
      refine ⟨?_, mem_drop_later (ht.2 rule hmem) htu⟩
      rw [ht.1]
      exact List.mem_map_of_mem hmem

lemma careful_runJobs {clock : Clock} (loaded? : Option Loaded) (jobs : List TriggerJob) (hbegan : Later began s)
    (hseen : ∀ job ∈ jobs, Seen U cfg s job)
    (hload : ∀ l, loaded? = some l → Usable began s l ∧ (l.error = none → l.total = 0 → Ruleless began)) :
    Careful U cfg began (fun p t => p.error = none → ∀ job ∈ jobs, 0 < t.fired job.message.id ∨ Ruleless began)
      (runJobs U clock loaded? jobs) s := by
  induction jobs generalizing loaded? s with
  | nil => exact ⟨fun _ job hjob => absurd hjob List.not_mem_nil, .refl⟩
  | cons job rest ih =>
    have hfirst : Careful U cfg began (fun l t => Usable began t l ∧ (l.error = none → l.total = 0 → Ruleless began))
        (loaded?.elim loadEnabledRules .done) s := by
      cases loaded? with
      | none => exact careful_load hbegan
      | some l => exact ⟨hload l rfl, .refl⟩
    rw [runJobs]
    refine careful_bind hfirst fun loaded t ht hst => ?_
    have hbt := hbegan.trans hst
    refine careful_bind (careful_runJob hbt ((hseen job List.mem_cons_self).later hst) ht.1 ht.2) fun p u hp htu => ?_
    refine careful_bind (ih (some loaded) (hbt.trans htu) (fun other hother =>
      (hseen other (List.mem_cons_of_mem _ hother)).later (hst.trans htu)) ?_) fun q v hq huv => ⟨fun h => ?_, .refl⟩
    · rintro l ⟨⟩
      exact ⟨ht.1.imp id fun h => h.later hbt htu, ht.2⟩
    · obtain ⟨hperror, hqerror⟩ := Option.or_eq_none_iff.mp h
      intro other hother
      obtain rfl | hold := List.mem_cons.mp hother
      · exact (hp hperror).imp_left fun hpos => hpos.trans_le (huv.fired _)
      · exact hq hqerror other hold

/-- A report without an error: every trigger that has stood unchanged since the pass began is in the ledger, unless there
was no rule row to try. -/
def Clean (U : Unicode) (cfg : TickConfig) (began : Desk) (r : TickReport) (s : Desk) : Prop :=
  r.error = none → (s.log.selected emailNs none).length ≤ tickScanCap → ∀ id e m,
    s.log.rev emailNs id = began.log.rev emailNs id → s.log.latest? emailNs id = some e →
      trigger? U cfg id e.data e.metaData = some m → 0 < s.fired id ∨ Ruleless began

/-- The rows that a pass scans. -/
structure Scanned (U : Unicode) (cfg : TickConfig) (began s : Desk) (rows : List Listed) (memory : Memory) : Prop where
  known : ∀ row ∈ rows, row.rev ≤ s.log.rev emailNs row.id
  remembered : ∀ row ∈ rows, memory row.id = some row.rev → MayRemember U cfg row.id row.rev s
  listed : ∀ t, Later s t → (t.log.selected emailNs none).length ≤ tickScanCap → ∀ id,
    t.log.rev emailNs id = began.log.rev emailNs id → 0 < t.log.rev emailNs id → ⟨id, t.log.rev emailNs id⟩ ∈ rows

lemma rev_pos_of_latest {log : Log} {ns id : String} {r : Revision} (h : log.latest? ns id = some r) :
    0 < log.rev ns id :=
  List.length_pos_of_mem (List.mem_of_getLast? h)

/-- A trigger that has stood unchanged gives rise to a job, or it is in the ledger already. -/
lemma Scanned.covers {found : String → Option (Option Got)} {rows : List Listed} {memory : Memory} {id : String}
    {e : Revision} {m : TriggerMessage} (h : Scanned U cfg began s rows memory) (hbegan : Later began s) (hst : Later s t)
    (hfound : ∀ id ∈ (candidates memory rows).map Listed.id,
      ∃ l : Log, s.log <+: l ∧ l <+: t.log ∧ found id = some (l.got? emailNs id))
    (hcap : (t.log.selected emailNs none).length ≤ tickScanCap) (hrev : t.log.rev emailNs id = began.log.rev emailNs id)
    (he : t.log.latest? emailNs id = some e) (htrigger : trigger? U cfg id e.data e.metaData = some m) :
    (∃ job ∈ (candidates memory rows).filterMap (jobAt U cfg found), job.message.id = id) ∨ 0 < t.fired id := by
  have hrow := h.listed t hst hcap id hrev (rev_pos_of_latest he)
  by_cases hmemory : memory id = some (t.log.rev emailNs id)
  · have hmay := (h.remembered _ hrow hmemory).later hst
    refine .inr ((hmay.2 e rfl he).resolve_left ?_)
    simp [htrigger]
  · have hcandidate : ⟨id, t.log.rev emailNs id⟩ ∈ candidates memory rows :=
      List.mem_filter.mpr ⟨hrow, by simpa using hmemory⟩
    obtain ⟨l, hsl, hlt, hread⟩ := hfound id (List.mem_map_of_mem hcandidate)
    -- what was read is the revision that stands at the end
    obtain ⟨-, hsame⟩ := rev_between (hbegan.log.trans hsl) hlt hrev
    have hgot : l.got? emailNs id = some ⟨l.rev emailNs id, e.data, e.metaData⟩ := by
      rw [Log.got?, ← latest_of_rev hlt hsame, he]
      rfl
    have hjob : jobAt U cfg found ⟨id, t.log.rev emailNs id⟩ = some ⟨⟨id, t.log.rev emailNs id⟩, m⟩ := by
      simp [jobAt, hread, hgot, htrigger]
    exact .inl ⟨_, List.mem_filterMap.mpr ⟨_, hcandidate, hjob⟩, trigger_id htrigger⟩

lemma isLedgered_cases {found : String → Option (Option Got)} {job : TriggerJob} (h : isLedgered found job = true) :
    ∃ got, found (firedPrefix ++ job.message.id) = some (some got) := by
  rw [isLedgered] at h
  split at h
  · rename_i got hfound
    exact ⟨got, hfound⟩
  · cases h

lemma careful_pass {clock : Clock} {rows : List Listed} {memory : Memory} (hbegan : Later began s)
    (hrows : Scanned U cfg began s rows memory) :
    Careful U cfg began (Clean U cfg began) (pass U cfg clock rows memory) s := by
  refine careful_bind (careful_fetch _ _ _) fun bodies t ht hst => ?_
  have hglimpsed : Glimpsed t bodies.found (candidates memory rows) := by
    intro row hrow got hgot
    obtain ⟨l, hsl, hlt, hl⟩ := ht.1 row.id got hgot
    exact ⟨l, (hrows.known row (List.mem_of_mem_filter hrow)).trans (rev_mono hsl), hlt, hl⟩
  refine careful_bind (careful_sift _ _ hglimpsed) fun sifted u hu htu => ?_
  have hseen : ∀ job ∈ sifted.triggers, Seen U cfg u job := by
    intro job hjob
    rw [hu] at hjob
    exact (hglimpsed.later htu).seen hjob
  refine careful_bind (careful_fetch _ _ _) fun batch v hv huv => ?_
  have hledgered : ∀ job ∈ sifted.triggers, isLedgered batch.found job = true → 0 < v.fired job.message.id := by
    intro job _ hjob
    obtain ⟨got, hfound⟩ := isLedgered_cases hjob
    obtain ⟨l, -, hlv, hl⟩ := hv.1 _ got hfound
    exact (rev_pos hl).trans_le (rev_mono hlv)
  refine careful_bind (careful_skipLedgered _ _ (fun job hjob => (hseen job hjob).later huv) hledgered)
    fun jobs w hw hvw => ?_
  have huw := huv.trans hvw
  have hsw := (hst.trans htu).trans huw
  have hjobs : ∀ job ∈ jobs, Seen U cfg w job := by
    intro job hjob
    rw [hw] at hjob
    exact (hseen job (List.mem_of_mem_filter hjob)).later huw
  refine careful_bind (careful_runJobs none jobs (hbegan.trans hsw) hjobs (by rintro l ⟨⟩)) fun p x hp hwx => ⟨?_, .refl⟩
  intro herror hcap id e m hrev he htrigger
  obtain ⟨hbefore, hperror⟩ := Option.or_eq_none_iff.mp herror
  obtain ⟨hbodies, -⟩ := Option.or_eq_none_iff.mp (Option.or_eq_none_iff.mp hbefore).1
  have hfound : ∀ id ∈ (candidates memory rows).map Listed.id,
      ∃ l : Log, s.log <+: l ∧ l <+: x.log ∧ bodies.found id = some (l.got? emailNs id) := by
    intro id hid
    obtain ⟨l, hsl, hlt, hread⟩ := ht.2 hbodies id hid
    exact ⟨l, hsl, hlt.trans ((htu.trans huw).trans hwx).log, hread⟩
  obtain ⟨job, hjob, rfl⟩ | hfired := hrows.covers hbegan (hsw.trans hwx) hfound hcap hrev he htrigger
  · rw [← hu] at hjob
    by_cases hskip : isLedgered batch.found job = true
    · exact .inl ((hledgered job hjob hskip).trans_le ((hvw.trans hwx).fired _))
    · apply hp hperror job
      rw [hw]
      exact List.mem_filter.mpr ⟨hjob, by simpa using hskip⟩
  · exact .inl hfired

/-- Whatever else goes on, a pass remembers and ledgers only what it may, and without an error it leaves no trigger. -/
lemma careful_runTick {clock : Clock} (hbegan : Later began s) :
    Careful U cfg began (Clean U cfg began) (runTick U cfg clock) s := by
  refine careful_read (q := .vault (.query emailNs none)) (serve_read rfl) fun w t _ _ hst => ?_
  cases hr : (port.serve w.fault t.log (.query emailNs none)).1 with
  | error f =>
    simp only [Desk.serve, hr]
    exact ⟨fun h => (Option.some_ne_none _ h).elim, .refl⟩
  | ok listed =>
    simp only [Desk.serve, hr]
    obtain rfl := Except.ok.inj (serve_ok hr).2
    refine careful_read (q := .memory) (fun _ _ => rfl) fun w u _ hkept htu => ?_
    refine careful_pass (hbegan.trans (hst.trans htu)) ⟨fun row hrow => ?_, fun row hrow hmemory => ?_, ?_⟩
    · obtain ⟨id, -, rfl⟩ := List.mem_map.mp (List.mem_of_mem_take hrow)
      exact rev_mono htu.log
    · refine ⟨hkept.known _ _ hmemory, fun e hrev he => ?_⟩
      rw [hrev] at hmemory
      exact hkept.settled _ e hmemory he
    · intro x hux hcap id hrev hpos
      have htx := htu.trans hux
      obtain ⟨-, hsame⟩ := rev_between (hbegan.trans hst).log htx.log hrev
      have hlength : ((t.log.selected emailNs none).map fun id => (⟨id, t.log.rev emailNs id⟩ : Listed)).length ≤
          tickScanCap := by
        rw [List.length_map]
        exact (selected_length htx.log _).trans hcap
      rw [List.take_of_length_le hlength, hsame]
      refine List.mem_map.mpr ⟨id, List.mem_filter.mpr ⟨mem_ids.mpr fun hnil => ?_, rfl⟩, rfl⟩
      rw [hsame, Log.rev, hnil] at hpos
      exact absurd hpos (lt_irrefl 0)

end Careful

section Loop

variable {U : Unicode} {cfg : TickConfig} {vault : Log} {s t : Loop} {e : Event}

/-- The gets of rule rows are answered; beyond that anything may come, in any order. -/
def RulesRead (s : Loop) : Event → Prop
  | .serve n weather => ∀ p q next, s.passes[n]? = some p → p.rest = .ask q next → ReadsRules weather q
  | _ => True

/-- A pass under way keeps its promises from here on. -/
structure PassKept (U : Unicode) (cfg : TickConfig) (s : Desk) (p : Pass) : Prop where
  began : Later p.began s
  runs : p.rest.isDone = false
  careful : p.rest.Safe desk ReadsRules (Onward U cfg) (Promised U cfg p.began) (Clean U cfg p.began) s

structure Watched (U : Unicode) (cfg : TickConfig) (s : Loop) : Prop where
  kept : Kept U cfg s.desk
  passes : ∀ p ∈ s.passes, PassKept U cfg s.desk p

lemma PassKept.onward {p : Pass} {x y : Desk} (h : PassKept U cfg x p) (hxy : Onward U cfg x y) : PassKept U cfg y p where
  began := h.began.trans hxy.later
  runs := h.runs
  careful := Process.Safe.later (fun _ _ _ h h' => ⟨h.later.trans h'.later, h'.kept⟩) h.careful h.runs hxy

lemma watched_start (h : Watched U cfg s) (clock : Clock) : Watched U cfg (s.start U cfg clock) where
  kept := h.kept
  passes p hp := by
    obtain hold | hnew := List.mem_append.mp hp
    · exact h.passes p hold
    · obtain rfl := List.mem_singleton.mp hnew
      exact ⟨.refl, rfl, Process.Safe.mono (careful_runTick .refl) fun _ _ hx => hx.1⟩

lemma watched_release (h : Watched U cfg s) : Watched U cfg (s.release U cfg) := by
  rw [Loop.release]
  have hfrom : Watched U cfg { s with inFlight := none, waiting := [] } := ⟨h.kept, h.passes⟩
  generalize ({ s with inFlight := none, waiting := [] } : Loop) = r at hfrom ⊢
  induction s.waiting generalizing r with
  | nil => exact hfrom
  | cons clock rest ih => exact ih _ (watched_start hfrom clock)

lemma watched_finish (n : ℕ) (p : Pass) (h : Watched U cfg s) : Watched U cfg (s.finish U cfg n p) := by
  have hfewer : Watched U cfg { s with passes := s.passes.eraseIdx n } :=
    ⟨h.kept, fun p hp => h.passes p (List.mem_of_mem_eraseIdx hp)⟩
  rw [Loop.finish]
  split_ifs
  · exact watched_release hfewer
  · exact hfewer

lemma watched_serve {n : ℕ} {weather : Weather} {p : Pass} {q : Query} {next : q.Answer → Fire TickReport}
    (h : Watched U cfg s) (hp : s.passes[n]? = some p) (hrest : p.rest = .ask q next) (hw : ReadsRules weather q) :
    Promised U cfg p.began s.desk (s.desk.serve weather q).2 ∧
      Watched U cfg (s.resume U cfg n p (s.desk.serve weather q).2 (next (s.desk.serve weather q).1)) := by
  have hpass := h.passes p (List.mem_of_getElem? hp)
  have hcareful := hpass.careful
  rw [hrest] at hcareful
  obtain ⟨hpromised, hnext⟩ := hcareful s.desk ⟨.refl, h.kept⟩ weather hw
  have hothers : ∀ p' ∈ s.passes, PassKept U cfg (s.desk.serve weather q).2 p' := fun p' hp' =>
    (h.passes p' hp').onward hpromised.toOnward
  refine ⟨hpromised, ?_⟩
  rw [Loop.resume]
  split_ifs with hdone
  · exact watched_finish n p ⟨hpromised.kept, hothers⟩
  · refine ⟨hpromised.kept, fun p' hp' => ?_⟩
    obtain hold | rfl := List.mem_or_eq_of_mem_set hp'
    · exact hothers p' hold
    · exact ⟨hpass.began.trans hpromised.later, by simpa using hdone, hnext⟩

lemma watched_step (hs : Watched U cfg s) (hread : RulesRead s e) (hstep : (director U cfg vault).step s e = some t) :
    Watched U cfg t := by
  cases e with
  | beat clock =>
    obtain rfl := Option.some.inj hstep
    split_ifs
    · exact watched_start hs clock
    · exact hs
  | tick clock =>
    obtain rfl := Option.some.inj hstep
    split_ifs
    · exact watched_start hs clock
    · exact ⟨hs.kept, hs.passes⟩
  | serve n weather =>
    obtain ⟨p, q, next, hp, hrest, rfl⟩ := serve_cases hstep
    exact (watched_serve hs hp hrest (hread p q next hp hrest)).2
  | write r =>
    obtain rfl := Option.some.inj hstep
    have hlater : Later s.desk { s.desk with log := s.desk.log ++ [r] } := ⟨List.prefix_append _ _, List.prefix_rfl⟩
    have hkept : Kept U cfg { s.desk with log := s.desk.log ++ [r] } := hs.kept.grow hlater rfl
    exact ⟨hkept, fun p hp => (hs.passes p hp).onward ⟨hlater, hkept⟩⟩
  | restart =>
    obtain rfl := Option.some.inj hstep
    exact ⟨⟨fun id rev h => by simp at h, fun id r h => by simp at h⟩, fun p hp => absurd hp List.not_mem_nil⟩

lemma watched_reachable (h : (director U cfg vault).Reachable RulesRead s) : Watched U cfg s := by
  refine h.invariant (P := Watched U cfg) ?_ fun _ _ _ _ hs hread hstep => watched_step hs hread hstep
  rintro s rfl
  exact ⟨⟨fun id rev h => by simp at h, fun id r h => by simp at h⟩, fun p hp => absurd hp List.not_mem_nil⟩

/-- A trigger whose present revision is remembered has its ledger row, and a pass writes a ledger row only after every
enabled rule about the sender that has stood unchanged since the pass began was tried on the message. -/
structure TriggersKept (U : Unicode) (cfg : TickConfig) (vault : Log) (s : Loop) : Prop where
  remembered : ∀ id r m, s.desk.memory id = some (s.desk.log.rev emailNs id) → s.desk.log.latest? emailNs id = some r →
    trigger? U cfg id r.data r.metaData = some m → 0 < s.desk.log.rev automationNs (firedPrefix ++ id)
  ledgered : ∀ n weather t p row, RulesRead s (.serve n weather) →
    (director U cfg vault).step s (.serve n weather) = some t → s.passes[n]? = some p →
      t.desk.log = s.desk.log ++ [row] → Attempted U cfg p.began s.desk row

theorem triggers_kept (h : (director U cfg vault).Reachable RulesRead s) : TriggersKept U cfg vault s := by
  have hwatched := watched_reachable h
  constructor
  · intro id r m hid hr htrigger
    refine (hwatched.kept.settled id r hid hr).resolve_left ?_
    simp [htrigger]
  · intro n weather t p row hread hstep hp hrow
    obtain ⟨p', q, next, hp', hrest, rfl⟩ := serve_cases hstep
    obtain rfl := Option.some.inj (hp'.symm.trans hp)
    rw [resume_desk] at hrow
    exact (watched_serve hwatched hp' hrest (hread p' q next hp' hrest)).1.rows row hrow

lemma rulesRead_of_alonely (h : alonely s e = true) : RulesRead s e := by
  cases e with
  | serve n weather =>
    have hnone : weather.fault = .none := of_decide_eq_true h
    intro p q next _ _
    cases q with
    | vault q =>
      cases q with
      | get => exact hnone
      | append => trivial
      | getMany => trivial
      | query => trivial
    | act a => trivial
    | memory => trivial
    | remember id rev => trivial
  | beat clock => trivial
  | tick clock => trivial
  | write r => trivial
  | restart => trivial

theorem triggers_kept_forwarded : ∃ s, (director ascii ⟨[]⟩ forwarding).Reachable RulesRead s ∧ s.desk.acts.length = 1 ∧
    TriggersKept ascii ⟨[]⟩ forwarding s := by
  have hrun : ((director ascii ⟨[]⟩ forwarding).exec (fun s e => alonely s e = true)
      ⟨⟨forwarding, fun _ => none, []⟩, [], none, [], 0⟩ forwarded).map (fun s => decide (s.desk.acts.length = 1)) =
        some true := by
    decide +kernel
  obtain ⟨s, hs, hf⟩ := System.exec_spec rfl hrun
  have hreach := hs.mono fun _ _ => rulesRead_of_alonely
  exact ⟨s, hreach, of_decide_eq_true hf, triggers_kept hreach⟩

/-- A pass that reports no error leaves no trigger of those that have stood unchanged since it began. -/
theorem pass_clears {n : ℕ} {weather : Weather} {p : Pass} {q : Query} {next : q.Answer → Fire TickReport} {r : TickReport}
    (h : (director U cfg vault).Reachable RulesRead s) (hp : s.passes[n]? = some p) (hrest : p.rest = .ask q next)
    (hw : ReadsRules weather q) (hdone : next (s.desk.serve weather q).1 = .done r) :
    Clean U cfg p.began r (s.desk.serve weather q).2 := by
  have hwatched := watched_reachable h
  have hcareful := (hwatched.passes p (List.mem_of_getElem? hp)).careful
  rw [hrest] at hcareful
  obtain ⟨-, hnext⟩ := hcareful s.desk ⟨.refl, hwatched.kept⟩ weather hw
  change (next (s.desk.serve weather q).1).Safe _ _ _ _ _ _ at hnext
  rw [hdone] at hnext
  exact hnext

/-- The pass that began first ends with its next call, and without an error. -/
def closes (s : Loop) : Bool :=
  match s.passes[0]? with
  | some p =>
    match p.rest with
    | .ask q next =>
      match next (s.desk.serve ⟨.none, .ok⟩ q).1 with
      | .done r => r.error.isNone
      | .ask .. => false
    | .done _ => false
  | none => false

lemma closes_cases (h : closes s = true) : ∃ p q next r, s.passes[0]? = some p ∧ p.rest = .ask q next ∧
    next (s.desk.serve ⟨.none, .ok⟩ q).1 = .done r ∧ r.error = none := by
  rw [closes] at h
  split at h
  · rename_i p hp
    split at h
    · rename_i q next hrest
      split at h
      · rename_i r hr
        exact ⟨p, q, next, r, hp, hrest, hr, Option.isNone_iff_eq_none.mp h⟩
      · cases h
    · cases h
  · cases h

lemma readsRules_of_none (q : Query) : ReadsRules ⟨.none, .ok⟩ q := by
  cases q with
  | vault q => cases q <;> trivial
  | act a => trivial
  | memory => trivial
  | remember id rev => trivial

theorem pass_clears_forwarded : ∃ s p q next r, (director ascii ⟨[]⟩ forwarding).Reachable RulesRead s ∧
    s.desk.acts.length = 1 ∧ s.passes[0]? = some p ∧ p.rest = .ask q next ∧ r.error = none ∧
      Clean ascii ⟨[]⟩ p.began r (s.desk.serve ⟨.none, .ok⟩ q).2 := by
  have hrun : ((director ascii ⟨[]⟩ forwarding).exec (fun s e => alonely s e = true)
      ⟨⟨forwarding, fun _ => none, []⟩, [], none, [], 0⟩ (forwarded.take 10)).map (fun s =>
        decide (s.desk.acts.length = 1 ∧ closes s = true)) = some true := by
    decide +kernel
  obtain ⟨s, hs, hf⟩ := System.exec_spec rfl hrun
  obtain ⟨hacts, hcloses⟩ := of_decide_eq_true hf
  obtain ⟨p, q, next, r, hp, hrest, hr, herror⟩ := closes_cases hcloses
  have hreach := hs.mono fun _ _ => rulesRead_of_alonely
  exact ⟨s, p, q, next, r, hreach, hacts, hp, hrest, herror,
    pass_clears hreach hp hrest (readsRules_of_none q) hr⟩

end Loop

end VivimOmega.Director.Tick

import VivimOmega.Gates.Retry
import VivimOmega.Library.Sha256
import VivimOmega.Library.Transition

/-! Whole runs of the session ledger: sessions that begin, log, import and close one after the other. -/

namespace VivimOmega.Gates

open Library Library.Json Library.Writing

section Operations

variable (U : Nlcl.Unicode) (cal : Calendar) (sha256 : Line → JsString)

/-- The digits of the time of day. -/
def timeOf (now : ℤ) : JsString := (((cal.toISOString now).drop 11).take 8).filter (· ≠ 58)

def sessionId (mission : JsString) (now : ℤ) : JsString :=
  dayOf cal now ++ 45 :: (timeOf cal now ++ 45 :: slugify U mission)

inductive BeginRefusal
  | unreadable
  | openExists (existing : OpenSession)
  | storeRed (first : StoreIssue)

/-- An `open.json` without a mission is malformed to its next reader. -/
def beginSession (mission agent : JsString) (now : ℤ) (s : Store) : Except BeginRefusal Store :=
  match s.opened with
  | .malformed => .error .unreadable
  | .holds existing => .error (.openExists existing)
  | .absent =>
    match (verifySessions cal sha256 s).issues with
    | issue :: _ => .error (.storeRed issue)
    | [] => .ok { s with
        opened := if mission = [] then .malformed
          else .holds ⟨sessionId U cal mission now, mission, agent, cal.toISOString now, now⟩
        stream := some []
        chain := .holds ⟨[], genesis⟩ }

inductive LogRefusal
  | unreadable (file : String)
  | refused (r : SessionRefusal)

def Store.withStream (s : Store) (stream : Stream) : Store :=
  { s with stream := some stream.lines, chain := .holds stream.chain }

/-- A chain that is malformed is found out after the event's shape is checked. -/
def logEvent (kind note : JsString) (data : Option (List (JsString × Value))) (now : ℤ) (s : Store) : Except LogRefusal Store :=
  match s.opened with
  | .malformed => .error (.unreadable "sessions/open.json")
  | .absent => .error (.refused .noneOpen)
  | .holds o =>
    match readChain s.chain with
    | none =>
      match parseEvent cal (serializeEvent ⟨cal.toISOString now, .zero, kind, note, data⟩) with
      | .error fault => .error (.refused (.shape fault))
      | .ok _ => .error (.unreadable "sessions/stream.chain.json")
    | some chain =>
      match appendSessionEvent cal sha256 (some o) ⟨readLines s, chain⟩ kind note data now with
      | .error refusal => .error (.refused refusal)
      | .ok appended => .ok (s.withStream appended.1)

/-- What an import leaves, also where it stops midway. A chain that is malformed lets no row through. -/
def importGates (file : Option (List Char)) (now : ℤ) (s : Store) : Store :=
  match s.opened, readChain s.chain with
  | .holds o, some chain =>
    let imported := (importGatesLog cal sha256 (some o) file now ⟨readLines s, chain⟩).2
    if imported.lines = readLines s then s else s.withStream imported
  | _, _ => s

inductive LedgerOp
  | opens (mission agent : JsString) (now : ℤ)
  | log (kind note : JsString) (data : Option (List (JsString × Value))) (now : ℤ)
  | imports (file : Option (List Char)) (now : ℤ)
  | close (lessons : List Lesson) (now : ℤ)

def Store.react (s : Store) : LedgerOp → Store
  | .opens mission agent now => (beginSession U cal sha256 mission agent now s).toOption.getD s
  | .log kind note data now => (logEvent cal sha256 kind note data now s).toOption.getD s
  | .imports file now => importGates cal sha256 file now s
  | .close lessons now => (closeSession U cal sha256 lessons now).after s none

/-- The store of one environment, with any development vault at the start. -/
def ledger : System Store LedgerOp where
  init s := ∃ vault, s = ⟨.absent, none, .absent, .empty, .absent, vault⟩
  step s op := some (s.react U cal sha256 op)

/-- A mission is not empty and its id is new, no first event is earlier than its session, and data is what JSON carries. -/
def Orderly (s : Store) : LedgerOp → Prop
  | .opens mission _ now => mission ≠ [] ∧ sessionId U cal mission now ∉ s.closed.keys
  | .log _ _ data now => (∀ members ∈ data, Value.Plain (.object members)) ∧
      ∀ o, s.opened = .holds o → readLines s = [] → o.beganAtMs ≤ now
  | _ => True

end Operations

section Streams

variable {cal : Calendar} {sha256 : Line → JsString} {o : OpenSession} {s : Stream} {kind note : JsString}
variable {data : Option (List (JsString × Value))} {now : ℤ} {line : Line}

/-- A line as the ledger writes it: its event is read back from it. -/
def Ledgered (cal : Calendar) (line : Line) : Prop := ∃ e, Wellformed cal e ∧ line = serializeEvent e

structure StreamKept (cal : Calendar) (sha256 : Line → JsString) (s : Stream) : Prop where
  verified : verifyChain cal sha256 s.lines s.chain = []
  anchored : Anchored s
  ledgered : ∀ line ∈ s.lines, Ledgered cal line

lemma kept_empty : StreamKept cal sha256 ⟨[], ⟨[], genesis⟩⟩ where
  verified := rfl
  anchored := .inr rfl
  ledgered := List.forall_mem_nil _

lemma StreamKept.push (h : StreamKept cal sha256 s) (hline : Ledgered cal line) :
    StreamKept cal sha256 (pushLine sha256 s line) where
  verified := by
    obtain ⟨e, he, rfl⟩ := hline
    exact (verified_push h.verified ⟨e, parseEvent_serialize he⟩).mpr h.anchored
  anchored := .inl (by simp [pushLine])
  ledgered x hx := by
    obtain hold | hnew := List.mem_append.mp hx
    · exact h.ledgered x hold
    · obtain rfl := List.mem_singleton.mp hnew
      exact hline

lemma lt_false_trans {k m n : Number} (hm : m ≠ .nan) (hnm : n.lt m = false) (hmk : m.lt k = false) : n.lt k = false := by
  obtain ⟨b, hb⟩ := Option.isSome_iff_exists.mp (rank_isSome.mpr hm)
  unfold Number.lt at *
  cases hn : n.rank with
  | none => rfl
  | some a =>
    cases hk : k.rank with
    | none => rfl
    | some c =>
      simp only [hn, hb, hk, decide_eq_false_iff_not, not_lt] at *
      exact hmk.trans hnm

/-- An event that is read back from its own line is well formed, when its data is what JSON carries. -/
lemma wellformed_of_parse {e event : SessionEvent} (hfinite : e.tMs.IsFinite) (helapsed : e.tMs.lt .zero = false)
    (hdata : ∀ members ∈ e.data, Value.Plain (.object members)) (hparse : parseEvent cal (serializeEvent e) = .ok event) :
    event = e ∧ Wellformed cal e := by
  obtain ⟨hstamp, htMs, hkind, hnote, hmembers⟩ := properties_value e
  have hplain : Value.Plain e.value := by
    unfold SessionEvent.value
    cases hsome : e.data with
    | none =>
      refine .object (by simp [ofText_injective.eq_iff]) ?_
      simp [Value.Plain.string, Value.Plain.number hfinite]
    | some members =>
      refine .object (by simp [ofText_injective.eq_iff]) ?_
      simp [Value.Plain.string, Value.Plain.number hfinite, hdata members hsome]
  have hvalue : parse (serializeEvent e) = some e.value := parse_render hplain
  rw [parseEvent, hvalue] at hparse
  simp only [SessionEvent.value, Bool.false_eq_true, if_false] at hparse
  rw [← SessionEvent.value, hnote] at hparse
  cases hnoted : isNote (.string e.note) with
  | error fault =>
    rw [hnoted] at hparse
    cases hparse
  | ok hasNote =>
    simp only [hnoted, checkEvent] at hparse
    split_ifs at hparse with hissues
    have hevent : eventOf e.value = some e := by
      simp [eventOf, hstamp, htMs, hkind, hnote, hmembers, textOf, numberOf?]
    rw [hevent, Except.ok.injEq] at hparse
    simp only [eventIssues, hstamp, hkind, textOf, List.append_eq_nil_iff, Option.bind_some, Option.any_some] at hissues
    obtain ⟨⟨⟨⟨hread, -⟩, hlegal⟩, hneeded⟩, -⟩ := hissues
    refine ⟨hparse.symm, ⟨?_, hfinite, helapsed, ?_, ?_, hdata⟩⟩
    · by_contra hbad
      simp [hbad] at hread
    · by_contra hbad
      simp [hbad] at hlegal
    · have hhas : hasNote = true := by
        by_contra hbad
        simp [hbad] at hneeded
      intro hblank
      simp only [isNote, textOf, hhas] at hnoted
      split_ifs at hnoted
      · cases hnoted
      · exact of_decide_eq_true (Except.ok.inj hnoted) hblank

/-- An event that is appended extends the stream by its line. -/
lemma append_kept {appended : Stream × ℕ × ℤ} (h : StreamKept cal sha256 s)
    (hdata : ∀ members ∈ data, Value.Plain (.object members)) (htimely : s.lines = [] → o.beganAtMs ≤ now)
    (happend : appendSessionEvent cal sha256 (some o) s kind note data now = .ok appended) :
    StreamKept cal sha256 appended.1 := by
  unfold appendSessionEvent at happend
  simp only at happend
  split at happend
  · cases happend
  · rename_i event hparse
    have hzero : Number.zero.lt .zero = false := by decide
    obtain ⟨rfl, hwell⟩ := wellformed_of_parse (e := ⟨cal.toISOString now, .zero, kind, note, data⟩) trivial hzero hdata hparse
    simp only [h.verified] at happend
    split_ifs at happend with hregress
    obtain rfl := Except.ok.inj happend
    have helapsed : (Number.ofInt (now - o.beganAtMs)).lt .zero = false := by
      by_cases hempty : s.lines = []
      · have hbegan := htimely hempty
        exact elapsed_ofInt (by omega)
      · have hlast : (Number.ofInt (now - o.beganAtMs)).lt (lastTMs cal s.lines) = false := by
          by_contra hlt
          exact hregress ⟨hempty, by simpa using hlt⟩
        obtain ⟨line, hline⟩ : ∃ line, s.lines.getLast? = some line := ⟨_, List.getLast?_eq_some_getLast hempty⟩
        obtain ⟨e, he, rfl⟩ := h.ledgered line (List.mem_of_getLast? hline)
        have htMs : lastTMs cal s.lines = e.tMs := by
          rw [lastTMs, hline]
          simp only [parseEvent_serialize he]
        rw [htMs] at hlast
        refine lt_false_trans ?_ hlast he.elapsed
        intro hnan
        have hfinite := he.finite
        rw [hnan] at hfinite
        exact hfinite
    refine h.push ⟨⟨cal.toISOString now, .ofInt (now - o.beganAtMs), kind, note, data⟩, ?_, rfl⟩
    exact ⟨hwell.stamp, isFinite_ofInt _, helapsed, hwell.kind, hwell.note, hdata⟩

lemma importLines_kept {log : List LogLine} {i : Importing} (hlog : ∀ r, .row r ∈ log → Read cal o.beganAtMs r)
    (h : StreamKept cal sha256 i.stream) : StreamKept cal sha256 (importLines cal sha256 o log i).2 := by
  induction log generalizing i with
  | nil => exact h
  | cons x rest ih =>
    have hrest : ∀ r, .row r ∈ rest → Read cal o.beganAtMs r := fun r hr => hlog r (List.mem_cons_of_mem x hr)
    cases x with
    | skipped => exact ih hrest h
    | fails => exact h
    | row r =>
      have hread := hlog r List.mem_cons_self
      rw [importLines_cons]
      split_ifs
      · exact ih hrest h
      · cases hnote : r.note with
        | none => exact h
        | some note =>
          simp only [append_row hread hnote, h.verified]
          split_ifs
          · exact h
          · apply ih hrest
            have hbegan := hread.began
            exact h.push ⟨_, wellformed_row hread hnote (isFinite_ofInt _) (elapsed_ofInt (by omega)), rfl⟩

end Streams

section Stores

variable {U : Nlcl.Unicode} {cal : Calendar} {sha256 : Line → JsString} {o : OpenSession} {s t : Store}
variable {kind note mission agent : JsString} {data : Option (List (JsString × Value))} {now : ℤ} {lessons : List Lesson}
variable {rows : List ClosedIndexRow} {env : ClosedEnvelope} {file : Option (List Char)} {op : LedgerOp}

/-- The envelope that a row pins, as it was sealed. -/
def PinsEnvelope (sha256 : Line → JsString) (closed : OrderedMap JsString (Option ClosedEnvelope)) (row : ClosedIndexRow) : Prop :=
  ∃ env, closed.get? row.id = some (some env) ∧ row = indexRow env ∧ env.streamSha256 = sha256 (canonicalEventBytes env.events)

structure StoreKept (cal : Calendar) (sha256 : Line → JsString) (s : Store) : Prop where
  readable : s.opened ≠ .malformed
  idle : s.opened = .absent → readLines s = []
  active : ∀ o, s.opened = .holds o → o.id ∉ s.closed.keys ∧
    ∃ chain, readChain s.chain = some chain ∧ StreamKept cal sha256 ⟨readLines s, chain⟩
  index : ∃ rows, readIndex s.index = some rows ∧ rows.map ClosedIndexRow.id = s.closed.keys ∧
    ∀ row ∈ rows, PinsEnvelope sha256 s.closed row

lemma rowIssues_pinned {closed : OrderedMap JsString (Option ClosedEnvelope)} {row : ClosedIndexRow}
    (h : PinsEnvelope sha256 closed row) : rowIssues sha256 closed row = [] := by
  obtain ⟨env, henv, rfl, hdigest⟩ := h
  exact rowIssues_self henv hdigest

/-- What a store that is kept says of itself. -/
lemma StoreKept.verified (h : StoreKept cal sha256 s) : (verifySessions cal sha256 s).issues = [] := by
  obtain ⟨rows, hrows, hids, hpins⟩ := h.index
  have hclosed : closedIssues sha256 s.closed rows = [] := by
    rw [closedIssues, List.append_eq_nil_iff, List.flatMap_eq_nil_iff, List.map_eq_nil_iff, List.filter_eq_nil_iff]
    refine ⟨fun row hrow => rowIssues_pinned (hpins row hrow), fun id hid => ?_⟩
    rw [hids, List.contains_iff_mem.mpr hid]
    decide
  unfold verifySessions
  cases hopened : s.opened with
  | malformed => exact absurd hopened h.readable
  | absent => simp [hrows, hclosed, openIssues, h.idle hopened]
  | holds o =>
    obtain ⟨-, chain, hchain, hstream⟩ := h.active o hopened
    simp [hrows, hclosed, openIssues, hchain, hstream.verified]

lemma StoreKept.withStream {stream : Stream} (h : StoreKept cal sha256 s) (hopened : s.opened = .holds o)
    (hstream : StreamKept cal sha256 stream) : StoreKept cal sha256 (s.withStream stream) where
  readable := h.readable
  idle habsent := by
    have hsame : (s.withStream stream).opened = .holds o := hopened
    rw [hsame] at habsent
    cases habsent
  active o' ho' := ⟨(h.active o' ho').1, stream.chain, rfl, hstream⟩
  index := h.index

lemma StoreKept.begin {t : Store} (h : StoreKept cal sha256 s) (horderly : mission ≠ [] ∧ sessionId U cal mission now ∉ s.closed.keys)
    (ht : beginSession U cal sha256 mission agent now s = .ok t) : StoreKept cal sha256 t := by
  unfold beginSession at ht
  split at ht
  · cases ht
  · cases ht
  · split at ht
    · cases ht
    · obtain rfl := Except.ok.inj ht
      rw [if_neg horderly.1]
      constructor
      · simp
      · simp
      · intro o ho
        obtain rfl := JsonFile.holds.inj ho
        exact ⟨horderly.2, ⟨[], genesis⟩, rfl, kept_empty⟩
      · exact h.index

lemma StoreKept.log {t : Store} (h : StoreKept cal sha256 s)
    (horderly : (∀ members ∈ data, Value.Plain (.object members)) ∧
      ∀ o, s.opened = .holds o → readLines s = [] → o.beganAtMs ≤ now)
    (ht : logEvent cal sha256 kind note data now s = .ok t) : StoreKept cal sha256 t := by
  unfold logEvent at ht
  split at ht
  · cases ht
  · cases ht
  · rename_i o hopened
    obtain ⟨-, chain, hchain, hstream⟩ := h.active o hopened
    simp only [hchain] at ht
    split at ht
    · cases ht
    · rename_i appended happend
      obtain rfl := Except.ok.inj ht
      exact h.withStream hopened (append_kept hstream horderly.1 (horderly.2 o hopened) happend)

lemma StoreKept.imports (h : StoreKept cal sha256 s) : StoreKept cal sha256 (importGates cal sha256 file now s) := by
  unfold importGates
  split
  · rename_i o chain hopened hchain
    obtain ⟨-, chain', hchain', hstream⟩ := h.active o hopened
    obtain rfl := Option.some.inj (hchain.symm.trans hchain')
    simp only
    split_ifs
    · exact h
    · apply h.withStream hopened
      exact importLines_kept (fun r hr => logLines_read hr) hstream
  · exact h

lemma recordLessons_beside (rest : List Lesson) (existing : List Value) :
    Meets (fun _ _ => True) (fun _ t => Beside s t) (recordLessons U cal sha256 o now existing rest) s := by
  induction rest generalizing s existing with
  | nil => exact meets_done rfl
  | cons l rest ih =>
    unfold recordLessons
    split_ifs
    · exact meets_refuse rfl
    · split
      · apply meets_bind (ih existing)
        · exact fun ids t ht => meets_done ht
        · exact fun fault t ht => ht
      · have hrecord : Meets (fun _ _ => True) (fun _ t => Beside s t)
            (recordDevEntry sha256 (lessonEntry U cal o now l)) s := by
          apply (recordDevEntry_meets sha256 _ s).mono (fun _ _ _ => trivial)
          rintro r t (⟨-, rfl, -⟩ | ⟨-, ledger, w, -, -, -, -, rfl⟩) <;> rfl
        apply meets_bind hrecord
        · intro _ t ht
          apply meets_bind (ih _)
          · exact fun ids r hr => meets_done (ht.trans hr)
          · exact fun fault r hr => ht.trans hr
        · exact fun fault t ht => ht

/-- A session is sealed: its stream is in an envelope, the index pins it, and nothing is open. -/
def Seals (cal : Calendar) (sha256 : Line → JsString) (s t : Store) (env : ClosedEnvelope) : Prop :=
  ∃ o chain rows, s.opened = .holds o ∧ readChain s.chain = some chain ∧ readIndex s.index = some rows ∧
    env.id = o.id ∧ env.chain = chain ∧ env.events = (readLines s).filterMap (eventAt cal) ∧
    env.streamSha256 = sha256 (canonicalEventBytes env.events) ∧
    t = ⟨.absent, none, .absent, s.closed.set env.id (some env), .holds (rows ++ [indexRow env]), t.vault⟩

lemma sealSession_ends (hrows : readIndex s.index = some rows) :
    Meets (fun _ _ => True) (fun r t => r = .ok env ∧
      t = ⟨.absent, none, .absent, s.closed.set env.id (some env), .holds (rows ++ [indexRow env]), s.vault⟩)
      (sealSession env) s := by
  unfold sealSession
  apply meets_write trivial
  apply meets_look
  simp only [hrows]
  apply meets_write trivial
  apply meets_write trivial
  apply meets_write trivial
  apply meets_write trivial
  exact meets_done ⟨rfl, rfl⟩

variable (U lessons now) in
/-- A close that is refused changes the development vault alone. -/
lemma closeSession_ends (h : StoreKept cal sha256 s) :
    Meets (fun _ _ => True) (fun r t => (∃ fault, r = .error fault) ∧ Beside s t ∨ ∃ env, r = .ok env ∧ Seals cal sha256 s t env)
      (closeSession U cal sha256 lessons now) s := by
  have hrefused : ∀ fault : CloseFault, (∃ f, (Except.error fault : Except CloseFault ClosedEnvelope) = .error f) ∧ Beside s s ∨
      ∃ env, (Except.error fault : Except CloseFault ClosedEnvelope) = .ok env ∧ Seals cal sha256 s s env :=
    fun fault => .inl ⟨⟨fault, rfl⟩, rfl⟩
  obtain ⟨rows, hrows, -⟩ := h.index
  unfold closeSession
  apply meets_look
  split
  · exact meets_refuse (hrefused _)
  · exact meets_refuse (hrefused _)
  · rename_i o hopened
    split_ifs
    · exact meets_refuse (hrefused _)
    · exact meets_refuse (hrefused _)
    · split
      · exact meets_refuse (hrefused _)
      · rename_i chain hchain
        split
        · exact meets_refuse (hrefused _)
        · split
          · exact meets_refuse (hrefused _)
          · split
            · exact meets_refuse (hrefused _)
            · rename_i existing hexisting
              apply meets_bind (recordLessons_beside lessons existing)
              · intro ids t ht
                have hindex : readIndex t.index = some rows := by
                  rw [ht]
                  exact hrows
                apply (sealSession_ends hindex).mono (fun _ _ hw => hw)
                rintro r r' ⟨rfl, hsealed⟩
                refine .inr ⟨_, rfl, o, chain, rows, hopened, hchain, hrows, rfl, rfl, rfl, rfl, ?_⟩
                rw [hsealed, ht]
              · exact fun fault t ht => .inl ⟨⟨fault, rfl⟩, ht⟩

lemma keys_set_fresh {closed : OrderedMap JsString (Option ClosedEnvelope)} {id : JsString} {v : Option ClosedEnvelope}
    (h : id ∉ closed.keys) : (closed.set id v).keys = closed.keys ++ [id] := by
  have hnot : ¬ closed.has id = true := by
    intro hhas
    exact h ((OrderedMap.get?_isSome closed id).mp hhas)
  rw [OrderedMap.set, dif_neg hnot]
  simp [OrderedMap.keys]

lemma Seals.kept (hseals : Seals cal sha256 s t env) (h : StoreKept cal sha256 s) : StoreKept cal sha256 t := by
  obtain ⟨o, chain, rows, hopened, -, hrows, hid, -, -, hdigest, ht⟩ := hseals
  obtain ⟨rows', hrows', hids, hpins⟩ := h.index
  obtain rfl := Option.some.inj (hrows.symm.trans hrows')
  have hfresh : env.id ∉ s.closed.keys := by
    rw [hid]
    exact (h.active o hopened).1
  rw [ht]
  constructor
  · simp
  · exact fun _ => rfl
  · simp
  · refine ⟨rows ++ [indexRow env], rfl, ?_, ?_⟩
    · rw [keys_set_fresh hfresh, List.map_append, hids]
      rfl
    · intro row hrow
      obtain hold | hnew := List.mem_append.mp hrow
      · have hne : row.id ≠ env.id := by
          intro heq
          apply hfresh
          rw [← hids, ← heq]
          exact List.mem_map_of_mem hold
        obtain ⟨env', henv', hrow', hdigest'⟩ := hpins row hold
        exact ⟨env', (OrderedMap.get?_set_of_ne _ _ hne).trans henv', hrow', hdigest'⟩
      · obtain rfl := List.mem_singleton.mp hnew
        exact ⟨env, OrderedMap.get?_set_self _ _ _, rfl, hdigest⟩

lemma Beside.kept (hbeside : Beside s t) (h : StoreKept cal sha256 s) : StoreKept cal sha256 t := by
  rw [hbeside]
  exact ⟨h.readable, h.idle, h.active, h.index⟩

lemma StoreKept.step (h : StoreKept cal sha256 s) (horderly : Orderly U cal s op) :
    StoreKept cal sha256 (s.react U cal sha256 op) := by
  cases op with
  | opens mission agent now =>
    simp only [Store.react]
    cases ht : beginSession U cal sha256 mission agent now s with
    | error refusal => exact h
    | ok t => exact h.begin horderly ht
  | log kind note data now =>
    simp only [Store.react]
    cases ht : logEvent cal sha256 kind note data now s with
    | error refusal => exact h
    | ok t => exact h.log horderly ht
  | imports file now => exact h.imports
  | close lessons now =>
    rcases (closeSession_ends U now lessons h).2 with ⟨-, hbeside⟩ | ⟨env, -, hseals⟩
    · exact hbeside.kept h
    · exact hseals.kept h

lemma storeKept_start (h : (ledger U cal sha256).init s) : StoreKept cal sha256 s := by
  obtain ⟨vault, rfl⟩ := h
  constructor
  · simp
  · exact fun _ => rfl
  · simp
  · exact ⟨[], rfl, rfl, List.forall_mem_nil _⟩

/-- Rows are added to the index at its end, and an envelope is never written again. -/
def Grown (s t : Store) : Prop :=
  (∃ rows more, readIndex s.index = some rows ∧ readIndex t.index = some (rows ++ more)) ∧
    ∀ id env, s.closed.get? id = some env → t.closed.get? id = some env

lemma grown_of_same (hindex : ∃ rows, readIndex s.index = some rows) (hsame : t.index = s.index)
    (hclosed : t.closed = s.closed) : Grown s t := by
  obtain ⟨rows, hrows⟩ := hindex
  refine ⟨⟨rows, [], hrows, ?_⟩, fun id env henv => ?_⟩
  · rw [hsame, hrows, List.append_nil]
  · rw [hclosed, henv]

lemma Grown.trans {r : Store} (h : Grown s t) (h' : Grown t r) : Grown s r := by
  obtain ⟨⟨rows, more, hrows, hmore⟩, hclosed⟩ := h
  obtain ⟨⟨rows', more', hrows', hmore'⟩, hclosed'⟩ := h'
  obtain rfl := Option.some.inj (hmore.symm.trans hrows')
  refine ⟨⟨rows, more ++ more', hrows, ?_⟩, fun id env henv => hclosed' id env (hclosed id env henv)⟩
  rw [hmore', List.append_assoc]

lemma Seals.grown (hseals : Seals cal sha256 s t env) (h : StoreKept cal sha256 s) : Grown s t := by
  obtain ⟨o, chain, rows, hopened, -, hrows, hid, -, -, -, ht⟩ := hseals
  rw [ht]
  refine ⟨⟨rows, [indexRow env], hrows, rfl⟩, fun id env' henv => ?_⟩
  have hne : id ≠ env.id := by
    rintro rfl
    rw [hid] at henv
    exact (h.active o hopened).1 ((OrderedMap.get?_isSome _ _).mp (by rw [henv]; rfl))
  exact (OrderedMap.get?_set_of_ne _ _ hne).trans henv

lemma StoreKept.grows (h : StoreKept cal sha256 s) : Grown s (s.react U cal sha256 op) := by
  obtain ⟨rows, hrows, -⟩ := h.index
  have hindex : ∃ rows, readIndex s.index = some rows := ⟨rows, hrows⟩
  cases op with
  | opens mission agent now =>
    simp only [Store.react]
    cases ht : beginSession U cal sha256 mission agent now s with
    | error refusal => exact grown_of_same hindex rfl rfl
    | ok t =>
      unfold beginSession at ht
      split at ht
      · cases ht
      · cases ht
      · split at ht
        · cases ht
        · obtain rfl := Except.ok.inj ht
          exact grown_of_same hindex rfl rfl
  | log kind note data now =>
    simp only [Store.react]
    cases ht : logEvent cal sha256 kind note data now s with
    | error refusal => exact grown_of_same hindex rfl rfl
    | ok t =>
      unfold logEvent at ht
      split at ht
      · cases ht
      · cases ht
      · split at ht
        · split at ht <;> cases ht
        · split at ht
          · cases ht
          · obtain rfl := Except.ok.inj ht
            exact grown_of_same hindex rfl rfl
  | imports file now =>
    simp only [Store.react, importGates]
    split
    · split_ifs
      · exact grown_of_same hindex rfl rfl
      · exact grown_of_same hindex rfl rfl
    · exact grown_of_same hindex rfl rfl
  | close lessons now =>
    rcases (closeSession_ends U now lessons h).2 with ⟨-, hbeside⟩ | ⟨env, -, hseals⟩
    · have hsame : (closeSession U cal sha256 lessons now).after s none =
          { s with vault := ((closeSession U cal sha256 lessons now).after s none).vault } := hbeside
      simp only [Store.react]
      rw [hsame]
      exact grown_of_same hindex rfl rfl
    · exact hseals.grown h

/-- The bytes of the events that were read from ledgered lines are the bytes of the lines. -/
lemma canonical_lines {lines : List Line} (h : ∀ line ∈ lines, Ledgered cal line) :
    canonicalEventBytes (lines.filterMap (eventAt cal)) = lines.flatMap fun line => line ++ ['\n'] := by
  induction lines with
  | nil => rfl
  | cons line rest ih =>
    obtain ⟨e, he, rfl⟩ := h line List.mem_cons_self
    have hevent : eventAt cal (serializeEvent e) = some e := by
      rw [eventAt, parseEvent_serialize he]
      rfl
    rw [List.filterMap_cons_some hevent, List.flatMap_cons, ← ih fun x hx => h x (List.mem_cons_of_mem _ hx)]
    rfl

lemma storeKept_reachable (h : (ledger U cal sha256).Reachable (Orderly U cal) s) : StoreKept cal sha256 s :=
  h.invariant (fun _ => storeKept_start) (fun r op t _ hr horderly ht => by
    obtain rfl := Option.some.inj ht
    exact hr.step horderly)

/-- A close that succeeds seals the stream as it was written, and under the id of its session. -/
def SealsStream (cal : Calendar) (sha256 : Line → JsString) (s t : Store) (env : ClosedEnvelope) : Prop :=
  Seals cal sha256 s t env ∧ canonicalEventBytes env.events = (readLines s).flatMap fun line => line ++ ['\n']

/-- Whatever is done in order, and whatever is refused, the ledger verifies, keeps what it has sealed, and seals what was
logged. -/
theorem sessions_kept (h : (ledger U cal sha256).Reachable (Orderly U cal) s) :
    (verifySessions cal sha256 s).issues = [] ∧
      (∀ t, (ledger U cal sha256).Later (Orderly U cal) s t → Grown s t) ∧
      ∀ lessons now env, (closeSession U cal sha256 lessons now s).2 = .ok env →
        SealsStream cal sha256 s ((closeSession U cal sha256 lessons now).after s none) env := by
  have hkept : StoreKept cal sha256 s := storeKept_reachable h
  refine ⟨hkept.verified, fun t ht => ?_, fun lessons now env hok => ?_⟩
  · have hgrown : StoreKept cal sha256 t ∧ Grown s t := by
      apply ht.invariant (P := fun t => StoreKept cal sha256 t ∧ Grown s t)
      · obtain ⟨rows, hrows, -⟩ := hkept.index
        exact ⟨hkept, grown_of_same ⟨rows, hrows⟩ rfl rfl⟩
      · rintro r op r' ⟨hr, hgrown⟩ horderly hr'
        obtain rfl := Option.some.inj hr'
        exact ⟨hr.step horderly, hgrown.trans hr.grows⟩
    exact hgrown.2
  · rcases (closeSession_ends U now lessons hkept).2 with ⟨⟨fault, hfault⟩, -⟩ | ⟨env', henv, hseals⟩
    · rw [hok] at hfault
      cases hfault
    · obtain rfl := Except.ok.inj (hok.symm.trans henv)
      refine ⟨hseals, ?_⟩
      obtain ⟨o, chain, -, hopened, hchain, -, -, -, hevents, -, -⟩ := hseals
      obtain ⟨-, chain', -, hstream⟩ := hkept.active o hopened
      rw [hevents]
      exact canonical_lines hstream.ledgered

/-- `createHash("sha256")` on a text. -/
def hashLine (line : Line) : JsString := ofText (Sha256.sha256Text (String.ofList line))

def freshStore : Store := ⟨.absent, none, .absent, .empty, .absent, ⟨.empty, .absent⟩⟩

/-- A session with one note in it. -/
def noted : Store :=
  (freshStore.react Nlcl.ascii epochCalendar hashLine (.opens (ofText "m") (ofText "a") 0)).react
    Nlcl.ascii epochCalendar hashLine (.log (ofText "note") (ofText "first") none 5)

lemma noted_reachable : (ledger Nlcl.ascii epochCalendar hashLine).Reachable (Orderly Nlcl.ascii epochCalendar) noted := by
  refine .next (e := .log (ofText "note") (ofText "first") none 5) (.next (.start ⟨⟨.empty, .absent⟩, rfl⟩)
    (e := .opens (ofText "m") (ofText "a") 0) ?_ rfl) ?_ rfl
  · exact ⟨by decide, by simp [OrderedMap.keys, OrderedMap.empty]⟩
  · refine ⟨by simp, fun o ho _ => ?_⟩
    have hopened : (freshStore.react Nlcl.ascii epochCalendar hashLine (.opens (ofText "m") (ofText "a") 0)).opened =
        .holds ⟨sessionId Nlcl.ascii epochCalendar (ofText "m") 0, ofText "m", ofText "a", epochISO 0, 0⟩ := rfl
    rw [freshStore] at hopened
    rw [hopened] at ho
    obtain rfl := JsonFile.holds.inj ho
    decide

theorem sessions_kept_noted : (verifySessions epochCalendar hashLine noted).issues = [] ∧
    (∀ t, (ledger Nlcl.ascii epochCalendar hashLine).Later (Orderly Nlcl.ascii epochCalendar) noted t → Grown noted t) ∧
    ∀ lessons now env, (closeSession Nlcl.ascii epochCalendar hashLine lessons now noted).2 = .ok env →
      SealsStream epochCalendar hashLine noted ((closeSession Nlcl.ascii epochCalendar hashLine lessons now).after noted none) env :=
  sessions_kept noted_reachable

/-- The links of a verified chain are the hashes of its lines. -/
lemma hashes_of_linked {n : ℕ} {prev : JsString} {links : List StreamLink} {lines : List Line}
    (hlength : links.length = lines.length) (h : linkIssues sha256 n prev links lines = []) :
    lines.map sha256 = links.map StreamLink.sha256 := by
  induction links generalizing n prev lines with
  | nil =>
    obtain rfl := List.eq_nil_of_length_eq_zero hlength.symm
    rfl
  | cons link links ih =>
    cases lines with
    | nil => cases hlength
    | cons line lines =>
      simp only [linkIssues, List.append_eq_nil_iff] at h
      obtain ⟨⟨⟨-, hhash⟩, -⟩, hrest⟩ := h
      have hsame : sha256 line = link.sha256 := by
        by_contra hne
        simp [hne] at hhash
      rw [List.map_cons, List.map_cons, hsame, ih (Nat.succ.inj hlength) hrest]

lemma map_eq_of_collisionless {xs ys : List Line} (h : xs.map sha256 = ys.map sha256)
    (hfree : ∀ a ∈ xs, ∀ b ∈ ys, sha256 a = sha256 b → a = b) : xs = ys := by
  induction xs generalizing ys with
  | nil => exact (List.map_eq_nil_iff.mp h.symm).symm
  | cons x xs ih =>
    cases ys with
    | nil => cases h
    | cons y ys =>
      obtain ⟨hxy, hrest⟩ := List.cons.inj h
      rw [hfree x List.mem_cons_self y List.mem_cons_self hxy,
        ih hrest fun a ha b hb => hfree a (List.mem_cons_of_mem _ ha) b (List.mem_cons_of_mem _ hb)]

/-- What the digests of a store are taken of: its lines, and the event bytes of its envelopes. -/
def Digested (s : Store) (text : Line) : Prop :=
  text ∈ readLines s ∨ ∃ id env, s.closed.get? id = some (some env) ∧ text = canonicalEventBytes env.events

/-- No line was touched, no envelope was added or removed, and their events are the same bytes. -/
structure Unedited (s t : Store) : Prop where
  lines : readLines t = readLines s
  envelopes : ∀ id, id ∈ t.closed.keys ↔ id ∈ s.closed.keys
  events : ∀ id env, s.closed.get? id = some (some env) → ∃ env', t.closed.get? id = some (some env') ∧
    canonicalEventBytes env'.events = canonicalEventBytes env.events

lemma lines_unedited (h : StoreKept cal sha256 s) (hopened : t.opened = s.opened) (hchain : t.chain = s.chain)
    (hgreen : (verifySessions cal sha256 t).issues = [])
    (hfree : ∀ a, Digested t a → ∀ b, Digested s b → sha256 a = sha256 b → a = b) : readLines t = readLines s := by
  have hopen : ∀ o?, (o? = none ↔ s.opened = .absent) → openIssues cal sha256 t o? = [] → readLines t = readLines s := by
    intro o? ho hissues
    cases o? with
    | none =>
      rw [h.idle (ho.mp rfl)]
      by_contra hlines
      simp [openIssues, hlines] at hissues
    | some o =>
      cases hs : s.opened with
      | absent => simp [hs] at ho
      | malformed => exact absurd hs h.readable
      | holds o' =>
        obtain ⟨-, chain, hread, hstream⟩ := h.active o' hs
        simp only [openIssues, hchain, hread, List.map_eq_nil_iff] at hissues
        obtain ⟨hlength, hlinks, -⟩ := verified_iff.mp hstream.verified
        obtain ⟨hlength', hlinks', -⟩ := verified_iff (s := ⟨readLines t, chain⟩) |>.mp hissues
        have hhashes : (readLines t).map sha256 = (readLines s).map sha256 := by
          rw [hashes_of_linked hlength' hlinks', hashes_of_linked hlength hlinks]
        exact map_eq_of_collisionless hhashes fun a ha b hb => hfree a (.inl ha) b (.inl hb)
  unfold verifySessions at hgreen
  rw [hopened] at hgreen
  cases hs : s.opened with
  | malformed => exact absurd hs h.readable
  | absent =>
    simp only [hs] at hgreen
    split at hgreen
    · simp at hgreen
    · exact hopen none (by simp [hs]) (List.append_eq_nil_iff.mp hgreen).1
  | holds o =>
    simp only [hs] at hgreen
    split at hgreen
    · simp at hgreen
    · exact hopen (some o) (by simp [hs]) (List.append_eq_nil_iff.mp hgreen).1

lemma closed_green (hgreen : (verifySessions cal sha256 t).issues = []) (hrows : readIndex t.index = some rows) :
    closedIssues sha256 t.closed rows = [] := by
  unfold verifySessions at hgreen
  split at hgreen
  · cases hgreen
  · simp only [hrows, List.append_eq_nil_iff] at hgreen
    exact hgreen.2

/-- Where the chain and the index are as the ledger left them and the store verifies, nothing that it holds was edited,
unless two of the texts collide. -/
theorem session_edits_show (h : (ledger U cal sha256).Reachable (Orderly U cal) s) (hopened : t.opened = s.opened)
    (hchain : t.chain = s.chain) (hindex : t.index = s.index) (hgreen : (verifySessions cal sha256 t).issues = []) :
    Unedited s t ∨ ∃ a b, Digested t a ∧ Digested s b ∧ sha256 a = sha256 b ∧ a ≠ b := by
  have hkept : StoreKept cal sha256 s := storeKept_reachable h
  by_cases hcollision : ∃ a b, Digested t a ∧ Digested s b ∧ sha256 a = sha256 b ∧ a ≠ b
  · exact .inr hcollision
  · have hfree : ∀ a, Digested t a → ∀ b, Digested s b → sha256 a = sha256 b → a = b := by
      intro a ha b hb hab
      by_contra hne
      exact hcollision ⟨a, b, ha, hb, hab, hne⟩
    obtain ⟨rows, hrows, hids, hpins⟩ := hkept.index
    have hclosed := closed_green hgreen (hindex ▸ hrows)
    simp only [closedIssues, List.append_eq_nil_iff, List.flatMap_eq_nil_iff, List.map_eq_nil_iff, List.filter_eq_nil_iff] at hclosed
    obtain ⟨hrowsClean, horphans⟩ := hclosed
    have hheld : ∀ row ∈ rows, ∃ env', t.closed.get? row.id = some (some env') ∧
        sha256 (canonicalEventBytes env'.events) = row.streamSha256 := by
      intro row hrow
      have hclean := hrowsClean row hrow
      unfold rowIssues at hclean
      split at hclean
      · cases hclean
      · cases hclean
      · rename_i env' henv'
        refine ⟨env', henv', ?_⟩
        by_contra hne
        simp [hne] at hclean
    refine .inl ⟨lines_unedited hkept hopened hchain hgreen hfree, fun id => ⟨fun hid => ?_, fun hid => ?_⟩, fun id env henv => ?_⟩
    · rw [← hids]
      by_contra hno
      exact horphans id hid (by simpa using hno)
    · rw [← hids] at hid
      obtain ⟨row, hrow, rfl⟩ := List.mem_map.mp hid
      obtain ⟨env', henv', -⟩ := hheld row hrow
      exact (OrderedMap.get?_isSome _ _).mp (by rw [henv']; rfl)
    · have hid : id ∈ rows.map ClosedIndexRow.id := by
        rw [hids]
        exact (OrderedMap.get?_isSome _ _).mp (by rw [henv]; rfl)
      obtain ⟨row, hrow, rfl⟩ := List.mem_map.mp hid
      obtain ⟨env₀, henv₀, hrow₀, hdigest⟩ := hpins row hrow
      obtain rfl := Option.some.inj (Option.some.inj (henv₀.symm.trans henv))
      obtain ⟨env', henv', hsame⟩ := hheld row hrow
      refine ⟨env', henv', hfree _ (.inr ⟨_, env', henv', rfl⟩) _ (.inr ⟨_, env₀, henv, rfl⟩) ?_⟩
      rw [hsame, hrow₀]
      exact hdigest

theorem session_edits_show_noted : Unedited noted noted ∨
    ∃ a b, Digested noted a ∧ Digested noted b ∧ hashLine a = hashLine b ∧ a ≠ b :=
  session_edits_show noted_reachable rfl rfl rfl (storeKept_reachable noted_reachable).verified

end Stores

end VivimOmega.Gates

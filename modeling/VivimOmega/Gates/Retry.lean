import VivimOmega.Gates.Close

/-! A close that died is called again, until it seals the session. -/

namespace VivimOmega.Gates

open Library Library.Json Library.Writing

section Vault

variable {U : Nlcl.Unicode} {cal : Calendar} {sha256 : Line → JsString} {o : OpenSession} {now : ℤ} {l : Lesson}
variable {lessons rest : List Lesson} {s t base : Store} {v : DevVault} {e : DevEntry} {ledger : DevLedger} {es existing : List Value}
variable {statement : JsString}

/-- What the vault has chained, as it is loaded. -/
def loaded (v : DevVault) : Option (List Value) := (readLedger v.ledger).bind fun ledger => loadEntries v.files ledger.chain

def recorded (v : DevVault) (statement : JsString) : ℕ := ((loaded v).getD []).countP (hasStatement statement)

def Verified (sha256 : Line → JsString) (v : DevVault) : Prop :=
  ∃ ledger, readLedger v.ledger = some ledger ∧ verifyDevVault sha256 v.files ledger = []

/-- The vault is loaded and has no statement of the lessons twice; where one is to be recorded, it verifies. -/
structure Recordable (sha256 : Line → JsString) (lessons : List Lesson) (v : DevVault) : Prop where
  loads : (loaded v).isSome
  once : ∀ l ∈ lessons, recorded v l.statement ≤ 1
  verified : Verified sha256 v ∨ ∀ l ∈ lessons, recorded v l.statement = 1

def IsDay (day : JsString) : Prop := day.length = 8 ∧ day.all isDayDigit

/-- The ids of the day are there for the statements that are not in the vault. -/
structure Free (U : Nlcl.Unicode) (cal : Calendar) (now : ℤ) (lessons : List Lesson) (v : DevVault) : Prop where
  day : ∀ l ∈ lessons, recorded v l.statement = 0 → IsDay (dayOf cal now)
  fresh : ∀ l ∈ lessons, recorded v l.statement = 0 → v.files.get? (entryPath (lessonId U cal now l)) = none
  apart : ∀ l ∈ lessons, ∀ l' ∈ lessons, recorded v l.statement = 0 → recorded v l'.statement = 0 →
    slugify U l.statement = slugify U l'.statement → l.statement = l'.statement

def afterEntry (sha256 : Line → JsString) (ledger : DevLedger) (v : DevVault) (e : DevEntry) : DevVault :=
  ⟨v.files.set (entryPath e.id) (serializeEntry e), .holds (pushEntry sha256 ledger (entryPath e.id) (serializeEntry e))⟩

lemma parseEntry_value {w : Value} (h : parseEntry (serializeEntry e) = .ok w) : w = e.value := by
  rw [parseEntry, parse_serializeEntry] at h
  simp only at h
  split_ifs at h
  cases h
  rfl

lemma recorded_of_loaded (h : loaded v = some es) (statement : JsString) :
    recorded v statement = es.countP (hasStatement statement) := by
  rw [recorded, h]
  rfl

lemma hasStatement_value (e : DevEntry) : hasStatement statement e.value = decide (e.statement = statement) := by
  simp [hasStatement, DevEntry.value, optionalProperty_cons, textOf]

/-- An entry that is recorded is loaded after the others, and the vault still verifies. -/
lemma recorded_after {w : Value} (hledger : readLedger v.ledger = some ledger) (hverified : verifyDevVault sha256 v.files ledger = [])
    (hload : (loaded v).isSome) (hnew : v.files.get? (entryPath e.id) = none) (hparse : parseEntry (serializeEntry e) = .ok w) :
    Verified sha256 (afterEntry sha256 ledger v e) ∧ (loaded (afterEntry sha256 ledger v e)).isSome ∧
      ∀ statement, recorded (afterEntry sha256 ledger v e) statement =
        recorded v statement + if e.statement = statement then 1 else 0 := by
  obtain ⟨es, hes⟩ := Option.isSome_iff_exists.mp hload
  have hentries : loadEntries v.files ledger.chain = some es := by
    rw [loaded, hledger] at hes
    exact hes
  have hlinks := (verified_vault_iff.mp hverified).1
  have hafter : loaded (afterEntry sha256 ledger v e) = some (es ++ [w]) := load_pushEntry hlinks hentries hnew hparse _ _
  refine ⟨⟨_, rfl, verified_pushEntry hverified hnew hparse⟩, by rw [hafter]; rfl, fun statement => ?_⟩
  rw [recorded_of_loaded hafter, recorded_of_loaded hes, List.countP_append, parseEntry_value hparse]
  simp [List.countP_cons, hasStatement_value]

/-- The entry is in the vault, and its link in the ledger. -/
def Records (sha256 : Line → JsString) (e : DevEntry) (s t : Store) : Prop :=
  ∃ ledger w, readLedger s.vault.ledger = some ledger ∧ verifyDevVault sha256 s.vault.files ledger = [] ∧
    s.vault.files.get? (entryPath e.id) = none ∧ parseEntry (serializeEntry e) = .ok w ∧
      t = { s with vault := afterEntry sha256 ledger s.vault e }

/-- An entry is recorded, or refused with the store as it was. -/
lemma recordDevEntry_meets (sha256 : Line → JsString) (e : DevEntry) (s : Store) :
    Meets (fun w t => w = .entry ∨ w = .ledger ∧ Records sha256 e s t)
      (fun r t => (∃ fault, r = .error fault) ∧ t = s ∧
          ¬ (WellKept e ∧ Verified sha256 s.vault ∧ s.vault.files.get? (entryPath e.id) = none) ∨
        r = .ok () ∧ Records sha256 e s t)
      (recordDevEntry sha256 e) s := by
  unfold recordDevEntry
  cases hparse : parseEntry (serializeEntry e) with
  | error fault =>
    refine meets_refuse (.inl ⟨⟨_, rfl⟩, rfl, fun h => ?_⟩)
    rw [parseEntry_serialize h.1] at hparse
    cases hparse
  | ok w =>
    apply meets_look
    cases hledger : readLedger s.vault.ledger with
    | none =>
      refine meets_refuse (.inl ⟨⟨_, rfl⟩, rfl, ?_⟩)
      rintro ⟨-, ⟨ledger, hread, -⟩, -⟩
      rw [hledger] at hread
      cases hread
    | some ledger =>
      cases hverified : verifyDevVault sha256 s.vault.files ledger with
      | cons issue issues =>
        simp only [hverified]
        refine meets_refuse (.inl ⟨⟨_, rfl⟩, rfl, ?_⟩)
        rintro ⟨-, ⟨ledger', hread, hnil⟩, -⟩
        rw [hledger, Option.some.injEq] at hread
        rw [← hread, hverified] at hnil
        cases hnil
      | nil =>
        simp only [hverified]
        cases hfile : s.vault.files.get? (entryPath e.id) with
        | some text => exact meets_refuse (.inl ⟨⟨_, rfl⟩, rfl, by simp⟩)
        | none =>
          have hrecords : Records sha256 e s { s with vault := afterEntry sha256 ledger s.vault e } :=
            ⟨ledger, w, hledger, hverified, hfile, hparse, rfl⟩
          rw [if_neg (by simp)]
          refine meets_write (.inl rfl) ?_
          exact ⟨List.forall_mem_singleton.mpr (.inr ⟨rfl, hrecords⟩), .inr ⟨rfl, hrecords⟩⟩

end Vault

section Slugs

variable {U : Nlcl.Unicode} {cal : Calendar} {now : ℤ} {l : Lesson} {u : UInt16} {s day : JsString}

lemma kebab_dashed (h : u ∈ dashed s) : isKebabUnit u = true := by
  induction s with
  | nil => cases h
  | cons v s ih =>
    rw [dashed] at h
    split_ifs at h with hv hnext
    · rcases List.mem_cons.mp h with rfl | h
      · simp [isKebabUnit, hv]
      · exact ih h
    · exact ih h
    · rcases List.mem_cons.mp h with rfl | h
      · simp [isKebabUnit]
      · exact ih h

lemma mem_withoutHead (h : u ∈ withoutHead s) : u ∈ s := by
  unfold withoutHead at h
  split_ifs at h
  · exact List.mem_of_mem_tail h
  · exact h

lemma mem_withoutLast (h : u ∈ withoutLast s) : u ∈ s := by
  unfold withoutLast at h
  split_ifs at h
  · exact List.mem_of_mem_dropLast h
  · exact h

/-- A slug is some letters, digits and dashes. -/
lemma slugify_kebab (U : Nlcl.Unicode) (s : JsString) : slugify U s ≠ [] ∧ (slugify U s).all isKebabUnit = true := by
  unfold slugify
  split_ifs with hempty
  · decide
  · refine ⟨hempty, List.all_eq_true.mpr fun u hu => ?_⟩
    exact kebab_dashed (mem_withoutHead (mem_withoutLast (List.mem_of_mem_take hu)))

lemma lessonId_entryId (hday : IsDay (dayOf cal now)) : isEntryId (lessonId U cal now l) = true := by
  obtain ⟨hlength, hdigits⟩ := hday
  obtain ⟨hne, hkebab⟩ := slugify_kebab U l.statement
  have htake : (lessonId U cal now l).take 8 = dayOf cal now := by
    rw [lessonId, List.take_append_of_le_length (by omega), List.take_of_length_le (by omega)]
  have hdrop : (lessonId U cal now l).drop 8 = 45 :: slugify U l.statement := by
    rw [lessonId, List.drop_append_of_le_length (by omega), List.drop_of_length_le (by omega), List.nil_append]
  have hslug : (lessonId U cal now l).drop 9 = slugify U l.statement := by
    rw [← List.drop_drop (i := 1) (j := 8), hdrop]
    rfl
  simp [isEntryId, htake, hdrop, hslug, hlength, hdigits, hne, hkebab]

lemma entryPath_slug {l' : Lesson} (h : entryPath (lessonId U cal now l) = entryPath (lessonId U cal now l')) :
    slugify U l.statement = slugify U l'.statement := by
  unfold entryPath lessonId at h
  exact (List.cons.inj (List.append_cancel_left (List.append_cancel_left (List.append_cancel_right h)))).2

lemma wellKept_lesson (o : OpenSession) (hshaped : wellShaped l = true) (hday : IsDay (dayOf cal now)) :
    WellKept (lessonEntry U cal o now l) := by
  simp only [wellShaped, Bool.and_eq_true, decide_eq_true_eq, List.all_eq_true] at hshaped
  obtain ⟨⟨hstatement, hcited⟩, hevidence⟩ := hshaped
  exact ⟨lessonId_entryId hday, hstatement, hcited, hevidence⟩

end Slugs

section Lessons

variable {U : Nlcl.Unicode} {cal : Calendar} {sha256 : Line → JsString} {o : OpenSession} {now : ℤ} {l : Lesson}
variable {lessons rest : List Lesson} {s t : Store} {existing : List Value} {e : DevEntry}

/-- Only the vault is another one. -/
def Beside (s t : Store) : Prop := t = { s with vault := t.vault }

lemma Beside.trans {r : Store} (h : Beside s t) (h' : Beside t r) : Beside s r := by
  rw [Beside, h', h]

lemma Records.recordable (hrecords : Records sha256 e s t) (hvault : Recordable sha256 lessons s.vault)
    (hnew : recorded s.vault e.statement = 0) :
    Beside s t ∧ Recordable sha256 lessons t.vault ∧
      ∀ statement, recorded t.vault statement = recorded s.vault statement + if e.statement = statement then 1 else 0 := by
  obtain ⟨ledger, w, hledger, hverified, hfresh, hparse, rfl⟩ := hrecords
  obtain ⟨hverified', hloads, hcounts⟩ := recorded_after hledger hverified hvault.loads hfresh hparse
  refine ⟨rfl, ⟨hloads, fun l hl => ?_, .inl hverified'⟩, hcounts⟩
  have honce := hvault.once l hl
  rw [hcounts]
  split_ifs with heq
  · rw [← heq, hnew]
  · exact honce

lemma Free.tail (h : Free U cal now (l :: rest) s.vault) : Free U cal now rest s.vault where
  day := fun l' hl' => h.day l' (List.mem_cons_of_mem l hl')
  fresh := fun l' hl' => h.fresh l' (List.mem_cons_of_mem l hl')
  apart := fun l' hl' l'' hl'' => h.apart l' (List.mem_cons_of_mem l hl') l'' (List.mem_cons_of_mem l hl'')

/-- What is free is so after another statement is recorded. -/
lemma Free.records (h : Free U cal now (l :: rest) s.vault) (hnew : recorded s.vault l.statement = 0)
    (hrecords : Records sha256 (lessonEntry U cal o now l) s t)
    (hcounts : ∀ statement, recorded t.vault statement =
      recorded s.vault statement + if l.statement = statement then 1 else 0) : Free U cal now rest t.vault := by
  have hbefore : ∀ l' : Lesson, recorded t.vault l'.statement = 0 → recorded s.vault l'.statement = 0 ∧ l.statement ≠ l'.statement := by
    intro l' hl'
    rw [hcounts] at hl'
    split_ifs at hl' with heq
    exact ⟨hl', heq⟩
  obtain ⟨ledger, w, -, -, -, -, rfl⟩ := hrecords
  refine ⟨fun l' hl' hzero => h.tail.day l' hl' (hbefore l' hzero).1, fun l' hl' hzero => ?_, fun l' hl' l'' hl'' hzero hzero' =>
    h.tail.apart l' hl' l'' hl'' (hbefore l' hzero).1 (hbefore l'' hzero').1⟩
  obtain ⟨hzero', hne⟩ := hbefore l' hzero
  have hpath : entryPath (lessonId U cal now l') ≠ entryPath (lessonId U cal now l) := by
    intro heq
    exact hne (h.apart l List.mem_cons_self l' (List.mem_cons_of_mem l hl') hnew hzero' (entryPath_slug heq).symm)
  exact (OrderedMap.get?_set_of_ne _ _ hpath).trans (h.tail.fresh l' hl' hzero')

/-- The lessons graduate one after the other: after every write of the ledger the vault is as before but for them. -/
lemma recordLessons_meets (hshaped : ∀ l ∈ lessons, wellShaped l = true) (hsub : ∀ l ∈ rest, l ∈ lessons)
    (hvault : Recordable sha256 lessons s.vault)
    (hknown : ∀ statement, existing.any (hasStatement statement) = true ↔ 0 < recorded s.vault statement) :
    Meets (fun w t => w = .entry ∨ w = .ledger ∧ Beside s t ∧ Recordable sha256 lessons t.vault)
      (fun r t => Beside s t ∧ Recordable sha256 lessons t.vault ∧
        (∀ statement, recorded s.vault statement ≤ recorded t.vault statement) ∧
        ((∃ ids, r = .ok ids) → ∀ l ∈ rest, 0 < recorded t.vault l.statement) ∧
        (Free U cal now rest s.vault → ∃ ids, r = .ok ids))
      (recordLessons U cal sha256 o now existing rest) s := by
  induction rest generalizing existing s with
  | nil =>
    refine meets_done ⟨rfl, hvault, fun _ => le_rfl, fun _ l hl => ?_, fun _ => ⟨[], rfl⟩⟩
    cases hl
  | cons l rest ih =>
    have hl := hsub l List.mem_cons_self
    have hrest : ∀ l' ∈ rest, l' ∈ lessons := fun l' hl' => hsub l' (List.mem_cons_of_mem l hl')
    rw [recordLessons, if_neg (by simp [hshaped l hl])]
    cases hfind : existing.find? (hasStatement l.statement) with
    | some prior =>
      have hprior : 0 < recorded s.vault l.statement :=
        (hknown _).mp (List.any_eq_true.mpr ⟨prior, List.mem_of_find?_eq_some hfind, List.find?_some hfind⟩)
      refine meets_bind (ih hrest hvault hknown) ?_ ?_
      · rintro ids t ⟨hbeside, hvault', hmono, hall, -⟩
        refine meets_done ⟨hbeside, hvault', hmono, fun _ => List.forall_mem_cons.mpr ⟨?_, hall ⟨ids, rfl⟩⟩, fun _ => ⟨_, rfl⟩⟩
        exact hprior.trans_le (hmono _)
      · rintro fault t ⟨hbeside, hvault', hmono, -, hfree⟩
        refine ⟨hbeside, hvault', hmono, ?_, fun h => ?_⟩
        · rintro ⟨ids, hids⟩
          cases hids
        · obtain ⟨ids, hids⟩ := hfree h.tail
          cases hids
    | none =>
      have hnew : recorded s.vault l.statement = 0 := by
        by_contra hne
        have hany := (hknown l.statement).mpr (Nat.pos_of_ne_zero hne)
        obtain ⟨e, he, hhas⟩ := List.any_eq_true.mp hany
        exact List.find?_eq_none.mp hfind e he hhas
      refine meets_bind ((recordDevEntry_meets sha256 (lessonEntry U cal o now l) s).mono ?_ fun _ _ h => h) ?_ ?_
      · rintro w t (rfl | ⟨rfl, hrecords⟩)
        · exact .inl rfl
        · obtain ⟨hbeside, hvault', -⟩ := hrecords.recordable hvault hnew
          exact .inr ⟨rfl, hbeside, hvault'⟩
      · rintro ⟨⟩ t (⟨⟨fault, hfault⟩, -⟩ | ⟨-, hrecords⟩)
        · cases hfault
        · obtain ⟨hbeside, hvault', hcounts⟩ := hrecords.recordable hvault hnew
          have hknown' : ∀ statement, (existing ++ [(graduated U cal o now l).value]).any (hasStatement statement) = true ↔
              0 < recorded t.vault statement := by
            intro statement
            rw [List.any_append, Bool.or_eq_true, hknown, hcounts, List.any_cons, List.any_nil, Bool.or_false, hasStatement_value,
              decide_eq_true_eq]
            have hsame : (graduated U cal o now l).statement = (lessonEntry U cal o now l).statement := rfl
            rw [hsame]
            split_ifs with heq <;> simp [heq]
          refine meets_bind ((ih hrest hvault' hknown').mono ?_ fun _ _ h => h) ?_ ?_
          · rintro w r (hentry | ⟨hledger, hbeside', hvault''⟩)
            · exact .inl hentry
            · exact .inr ⟨hledger, hbeside.trans hbeside', hvault''⟩
          · rintro ids r ⟨hbeside', hvault'', hmono, hall, -⟩
            have hgrown : ∀ statement, recorded s.vault statement ≤ recorded r.vault statement := by
              intro statement
              have hstep := hmono statement
              rw [hcounts] at hstep
              omega
            refine meets_done ⟨hbeside.trans hbeside', hvault'', hgrown,
              fun _ => List.forall_mem_cons.mpr ⟨?_, hall ⟨ids, rfl⟩⟩, fun _ => ⟨_, rfl⟩⟩
            have hstep := hmono l.statement
            have hcount := hcounts l.statement
            have hsame : (lessonEntry U cal o now l).statement = l.statement := rfl
            rw [hsame, if_pos rfl] at hcount
            omega
          · rintro fault r ⟨hbeside', hvault'', hmono, -, hfree⟩
            refine ⟨hbeside.trans hbeside', hvault'', fun statement => ?_, ?_, fun h => ?_⟩
            · have hstep := hmono statement
              rw [hcounts] at hstep
              omega
            · rintro ⟨ids, hids⟩
              cases hids
            · obtain ⟨ids, hids⟩ := hfree (h.records hnew hrecords hcounts)
              cases hids
      · rintro fault t (⟨-, rfl, hrefused⟩ | ⟨hok, -⟩)
        · refine ⟨rfl, hvault, fun _ => le_rfl, ?_, fun h => ?_⟩
          · rintro ⟨ids, hids⟩
            cases hids
          · refine absurd ⟨wellKept_lesson o (hshaped l hl) (h.day l List.mem_cons_self hnew), ?_,
              h.fresh l List.mem_cons_self hnew⟩ hrefused
            rcases hvault.verified with hverified | hall
            · exact hverified
            · rw [hall l hl] at hnew
              cases hnew
        · cases hok

end Lessons

section Close

/-- The rows of the index pin the envelopes, but for one of the session itself. -/
structure Pinned (sha256 : Line → JsString) (o : OpenSession) (closed : OrderedMap JsString (Option ClosedEnvelope))
    (rows : List ClosedIndexRow) : Prop where
  others : ∀ row ∈ rows, row.id ≠ o.id
  sound : ∀ row ∈ rows, rowIssues sha256 closed row = []
  pinned : ∀ id ∈ closed.keys, id = o.id ∨ id ∈ rows.map ClosedIndexRow.id

/-- The session is open, its stream is verified and not empty, and nothing stands in the way of its close. -/
structure Retriable (cal : Calendar) (sha256 : Line → JsString) (lessons : List Lesson) (o : OpenSession) (lines : List Line)
    (s : Store) : Prop where
  opened : s.opened = .holds o
  stream : readLines s = lines
  logged : lines ≠ []
  chain : ∃ chain, readChain s.chain = some chain ∧ verifyChain cal sha256 lines chain = []
  index : ∃ rows, readIndex s.index = some rows ∧ Pinned sha256 o s.closed rows
  vault : Recordable sha256 lessons s.vault

structure Sealed (cal : Calendar) (sha256 : Line → JsString) (lessons : List Lesson) (o : OpenSession) (lines : List Line)
    (s : Store) : Prop where
  row : ∃ rows, s.index = .holds rows ∧ (rows.countP fun row => row.id = o.id) = 1
  entries : ∀ l ∈ lessons, recorded s.vault l.statement = 1
  envelope : ∃ env, s.closed.get? o.id = some (some env) ∧ env.events = lines.filterMap (eventAt cal)
  opened : s.opened = .absent
  stream : s.stream = none
  chain : s.chain = .absent
  verified : (verifySessions cal sha256 s).issues = []

/-- The writes after which a process can die. -/
def Survivable (w : FileWrite) : Prop := w = .ledger ∨ w = .envelope ∨ w = .chain

variable {U : Nlcl.Unicode} {cal : Calendar} {sha256 : Line → JsString} {o : OpenSession} {now : ℤ}
variable {lessons : List Lesson} {s t : Store} {lines : List Line} {env : ClosedEnvelope}
variable {closed : OrderedMap JsString (Option ClosedEnvelope)} {rows : List ClosedIndexRow}

lemma rowIssues_set {row : ClosedIndexRow} (hne : row.id ≠ o.id) (env : Option ClosedEnvelope) :
    rowIssues sha256 (closed.set o.id env) row = rowIssues sha256 closed row := by
  unfold rowIssues
  rw [OrderedMap.get?_set_of_ne _ _ hne]

lemma Pinned.set (h : Pinned sha256 o closed rows) (env : Option ClosedEnvelope) : Pinned sha256 o (closed.set o.id env) rows where
  others := h.others
  sound := fun row hrow => (rowIssues_set (h.others row hrow) env).trans (h.sound row hrow)
  pinned := by
    intro id hid
    by_cases heq : id = o.id
    · exact .inl heq
    · have hsome := (OrderedMap.get?_isSome _ id).mpr hid
      rw [OrderedMap.get?_set_of_ne _ _ heq] at hsome
      exact h.pinned id ((OrderedMap.get?_isSome closed id).mp hsome)

lemma rowIssues_self (henv : closed.get? env.id = some (some env)) (hdigest : env.streamSha256 = sha256 (canonicalEventBytes env.events)) :
    rowIssues sha256 closed (indexRow env) = [] := by
  have hid : (indexRow env).id = env.id := rfl
  rw [rowIssues, hid, henv]
  simp [indexRow, hdigest]

/-- With the row of the session every envelope is pinned. -/
lemma Pinned.closedIssues (h : Pinned sha256 o closed rows) (hid : env.id = o.id)
    (henv : closed.get? env.id = some (some env)) (hdigest : env.streamSha256 = sha256 (canonicalEventBytes env.events)) :
    closedIssues sha256 closed (rows ++ [indexRow env]) = [] := by
  have hrows : ∀ row ∈ rows ++ [indexRow env], rowIssues sha256 closed row = [] := by
    intro row hrow
    rcases List.mem_append.mp hrow with hrow | hrow
    · exact h.sound row hrow
    · rw [List.mem_singleton.mp hrow]
      exact rowIssues_self henv hdigest
  have hkeys : ∀ id ∈ closed.keys, id ∈ (rows ++ [indexRow env]).map ClosedIndexRow.id := by
    intro id hin
    rw [List.map_append, List.mem_append]
    rcases h.pinned id hin with rfl | hpinned
    · exact .inr (by simp [indexRow, hid])
    · exact .inl hpinned
  rw [Gates.closedIssues, List.append_eq_nil_iff, List.flatMap_eq_nil_iff, List.map_eq_nil_iff, List.filter_eq_nil_iff]
  refine ⟨hrows, fun id hin => ?_⟩
  rw [List.contains_iff_mem.mpr (hkeys id hin)]
  decide

lemma countP_row (h : Pinned sha256 o closed rows) (hid : env.id = o.id) :
    ((rows ++ [indexRow env]).countP fun row => row.id = o.id) = 1 := by
  have hnone : (rows.countP fun row => row.id = o.id) = 0 :=
    List.countP_eq_zero.mpr fun row hrow => by simpa using h.others row hrow
  have hself : (indexRow env).id = o.id := hid
  simp [List.countP_append, hnone, hself]

/-- Whatever is written before the index is rewritten can be written again. -/
lemma sealSession_meets (h : Retriable cal sha256 lessons o lines s) (hid : env.id = o.id)
    (hevents : env.events = lines.filterMap (eventAt cal)) (hdigest : env.streamSha256 = sha256 (canonicalEventBytes env.events))
    (hall : ∀ l ∈ lessons, recorded s.vault l.statement = 1) :
    Meets (fun w t => Survivable w → Retriable cal sha256 lessons o lines t ∨ Sealed cal sha256 lessons o lines t)
      (fun _ t => Sealed cal sha256 lessons o lines t) (sealSession env) s := by
  obtain ⟨rows, hrows, hpinned⟩ := h.index
  have henvelope : Retriable cal sha256 lessons o lines { s with closed := s.closed.set env.id (some env) } := by
    refine ⟨h.opened, h.stream, h.logged, h.chain, ⟨rows, hrows, ?_⟩, h.vault⟩
    rw [hid]
    exact hpinned.set _
  have hpinned' : Pinned sha256 o (s.closed.set env.id (some env)) rows := by
    rw [hid]
    exact hpinned.set _
  have hget : (s.closed.set env.id (some env)).get? env.id = some (some env) := OrderedMap.get?_set_self _ _ _
  have hsealed : Sealed cal sha256 lessons o lines
      { s with closed := s.closed.set env.id (some env), index := .holds (rows ++ [indexRow env]), opened := .absent,
               stream := none, chain := .absent } := by
    refine ⟨⟨_, rfl, countP_row hpinned' hid⟩, hall, ⟨env, by rw [← hid]; exact hget, hevents⟩, rfl, rfl, rfl, ?_⟩
    exact hpinned'.closedIssues hid hget hdigest
  unfold sealSession
  refine meets_write (fun _ => .inl henvelope) (meets_look ?_)
  simp only [hrows]
  refine meets_write ?_ (meets_write ?_ (meets_write ?_ (meets_write ?_ (meets_done hsealed))))
  · simp [Survivable]
  · simp [Survivable]
  · simp [Survivable]
  · exact fun _ => .inr hsealed

/-- A session that can be closed: its lessons graduate, then it is sealed. -/
lemma closeSession_open (U : Nlcl.Unicode) (now : ℤ) (hne : lessons ≠ []) (h : Retriable cal sha256 lessons o lines s) :
    ∃ chain existing, closeSession U cal sha256 lessons now s = (do
        let ids ← recordLessons U cal sha256 o now existing lessons
        sealSession (sealedEnvelope cal sha256 o now (lines.filterMap (eventAt cal)) chain lessons ids)) s ∧
      ∀ statement, existing.any (hasStatement statement) = true ↔ 0 < recorded s.vault statement := by
  obtain ⟨chain, hchain, hverified⟩ := h.chain
  obtain ⟨existing, hexisting⟩ := Option.isSome_iff_exists.mp h.vault.loads
  obtain ⟨ledger, hledger, hload⟩ := Option.bind_eq_some_iff.mp hexisting
  refine ⟨chain, existing, ?_, fun statement => ?_⟩
  · have hlook : closeSession U cal sha256 lessons now s = (Writing.bind Writing.look fun s => _) s := rfl
    rw [hlook, Writing.bind, Writing.look]
    simp only [h.opened, h.stream, if_neg h.logged, if_neg hne, hchain, hverified, hledger, hload, last_nil, List.nil_append]
  · rw [recorded_of_loaded hexisting, List.countP_pos_iff, List.any_eq_true]

lemma Retriable.beside (h : Retriable cal sha256 lessons o lines s) (ht : Beside s t) (hvault : Recordable sha256 lessons t.vault) :
    Retriable cal sha256 lessons o lines t := by
  rw [ht]
  exact ⟨h.opened, h.stream, h.logged, h.chain, h.index, hvault⟩

/-- A close leaves what can be closed again or what is sealed, wherever it is survived; and where the ids are free it seals. -/
lemma closeSession_meets (hshaped : ∀ l ∈ lessons, wellShaped l = true) (hne : lessons ≠ [])
    (h : Retriable cal sha256 lessons o lines s) :
    Meets (fun w t => Survivable w → Retriable cal sha256 lessons o lines t ∨ Sealed cal sha256 lessons o lines t)
      (fun _ t => (Retriable cal sha256 lessons o lines t ∨ Sealed cal sha256 lessons o lines t) ∧
        (Free U cal now lessons s.vault → Sealed cal sha256 lessons o lines t))
      (closeSession U cal sha256 lessons now) s := by
  obtain ⟨chain, existing, hclose, hknown⟩ := closeSession_open U now hne h
  refine Meets.congr (meets_bind ((recordLessons_meets hshaped (fun _ hl => hl) h.vault hknown).mono ?_ fun _ _ h => h) ?_ ?_) hclose
  · rintro w t (rfl | ⟨-, ht, hvault⟩)
    · simp [Survivable]
    · exact fun _ => .inl (h.beside ht hvault)
  · rintro ids t ⟨ht, hvault, -, hall, -⟩
    have hone : ∀ l ∈ lessons, recorded t.vault l.statement = 1 := by
      intro l hl
      have hpos := hall ⟨ids, rfl⟩ l hl
      have hle := hvault.once l hl
      omega
    exact (sealSession_meets (h.beside ht hvault) rfl rfl rfl hone).mono (fun _ _ hw => hw) fun _ _ hend => ⟨.inr hend, fun _ => hend⟩
  · rintro fault t ⟨ht, hvault, -, -, hfree⟩
    refine ⟨.inl (h.beside ht hvault), fun hids => ?_⟩
    obtain ⟨ids, hok⟩ := hfree hids
    cases hok

/-- Where no session is open a close writes nothing. -/
lemma closeSession_none (hopened : s.opened = .absent) :
    Meets (fun _ _ => False) (fun _ t => t = s) (closeSession U cal sha256 lessons now) s := by
  unfold closeSession
  apply meets_look
  simp only [hopened]
  exact meets_refuse rfl

end Close

section Attempts

variable (U : Nlcl.Unicode) (cal : Calendar) (sha256 : Line → JsString) (lessons : List Lesson)

/-- A call of the close, which may die after so many writes. -/
structure Attempt where
  now : ℤ
  death : Option ℕ

def attempt (s : Store) (a : Attempt) : Store := (closeSession U cal sha256 lessons a.now).after s a.death

def attempts (s : Store) (as : List Attempt) : Store := as.foldl (attempt U cal sha256 lessons) s

/-- None of the calls dies after an entry or the row of the index, and before the write that belongs with it. -/
def Survived : Store → List Attempt → Prop
  | _, [] => True
  | s, a :: as => Survives Survivable (closeSession U cal sha256 lessons a.now) s a.death ∧
      Survived (attempt U cal sha256 lessons s a) as

variable {U cal sha256 lessons} {o : OpenSession} {lines : List Line} {s : Store} {now : ℤ} {a : Attempt} {as : List Attempt}

lemma attempt_none (hopened : s.opened = .absent) (a : Attempt) : attempt U cal sha256 lessons s a = s := by
  have hmeets : Meets (fun _ _ => False) (fun _ t => t = s) (closeSession U cal sha256 lessons a.now) s := closeSession_none hopened
  have hsurvives : Survives (fun _ => True) (closeSession U cal sha256 lessons a.now) s a.death := fun _ _ _ _ => trivial
  exact hmeets.after (P := fun t => t = s) rfl (fun _ _ _ h => h.elim) (fun _ _ h => h) hsurvives

lemma attempts_none (hopened : s.opened = .absent) (as : List Attempt) : attempts U cal sha256 lessons s as = s := by
  induction as with
  | nil => rfl
  | cons a as ih =>
    rw [attempts, List.foldl_cons, attempt_none hopened]
    exact ih

/-- A call that is survived leaves the session open, as it was to be closed, or sealed. -/
lemma attempt_survived (hshaped : ∀ l ∈ lessons, wellShaped l = true) (hne : lessons ≠ [])
    (h : Retriable cal sha256 lessons o lines s ∨ Sealed cal sha256 lessons o lines s)
    (hdeath : Survives Survivable (closeSession U cal sha256 lessons a.now) s a.death) :
    Retriable cal sha256 lessons o lines (attempt U cal sha256 lessons s a) ∨
      Sealed cal sha256 lessons o lines (attempt U cal sha256 lessons s a) := by
  rcases h with h | h
  · exact (closeSession_meets hshaped hne h).after (.inl h) (fun _ _ hw hwrites => hwrites hw) (fun _ _ hends => hends.1) hdeath
  · rw [attempt_none h.opened]
    exact .inr h

lemma attempts_survived (hshaped : ∀ l ∈ lessons, wellShaped l = true) (hne : lessons ≠ [])
    (h : Retriable cal sha256 lessons o lines s ∨ Sealed cal sha256 lessons o lines s) (hrun : Survived U cal sha256 lessons s as) :
    Retriable cal sha256 lessons o lines (attempts U cal sha256 lessons s as) ∨
      Sealed cal sha256 lessons o lines (attempts U cal sha256 lessons s as) := by
  induction as generalizing s with
  | nil => exact h
  | cons a as ih => exact ih (attempt_survived hshaped hne h hrun.1) hrun.2

theorem close_retried (hshaped : ∀ l ∈ lessons, wellShaped l = true) (hne : lessons ≠ [])
    (h : Retriable cal sha256 lessons o lines s) (hrun : Survived U cal sha256 lessons s as)
    (hfree : Free U cal now lessons (attempts U cal sha256 lessons s as).vault) :
    Sealed cal sha256 lessons o lines (attempts U cal sha256 lessons s (as ++ [⟨now, none⟩])) := by
  have hlast : attempts U cal sha256 lessons s (as ++ [⟨now, none⟩]) =
      attempt U cal sha256 lessons (attempts U cal sha256 lessons s as) ⟨now, none⟩ := by
    simp [attempts]
  rw [hlast]
  rcases attempts_survived hshaped hne (.inl h) hrun with hretriable | hsealed
  · exact (closeSession_meets hshaped hne hretriable).2.2 hfree
  · rw [attempt_none hsealed.opened]
    exact hsealed

lemma sealSession_midway {env : ClosedEnvelope} {rows : List ClosedIndexRow} (hrows : readIndex s.index = some rows) :
    ∃ x ∈ (sealSession env s).1, x.2.opened = .absent ∧ x.2.stream = s.stream := by
  refine ⟨(.opened, { s with closed := s.closed.set env.id (some env), index := .holds (rows ++ [indexRow env]), opened := .absent }),
    ?_, rfl, rfl⟩
  unfold sealSession
  refine mem_bind rfl (mem_bind rfl ?_)
  have hlast : last s (write (W := FileWrite) (E := CloseFault) FileWrite.envelope
      (fun s : Store => { s with closed := s.closed.set env.id (some env) }) s).1 =
      { s with closed := s.closed.set env.id (some env) } := rfl
  rw [hlast]
  simp only [look, last_nil, hrows]
  exact mem_bind rfl (mem_write _ _ _ _)

/-- Where the ids are free, there is a write that leaves no session open and the stream there. -/
lemma closed_midway (hshaped : ∀ l ∈ lessons, wellShaped l = true) (hne : lessons ≠ [])
    (h : Retriable cal sha256 lessons o lines s) (hfree : Free U cal now lessons s.vault) :
    ∃ x ∈ (closeSession U cal sha256 lessons now s).1, x.2.opened = .absent ∧ readLines x.2 = lines := by
  obtain ⟨chain, existing, hclose, hknown⟩ := closeSession_open U now hne h
  have hmeets : Meets _ _ (recordLessons U cal sha256 o now existing lessons) s :=
    recordLessons_meets hshaped (fun _ hl => hl) h.vault hknown
  obtain ⟨-, ht, hvault, -, -, hok⟩ := hmeets
  obtain ⟨ids, hids⟩ := hok hfree
  have hretriable := h.beside ht hvault
  obtain ⟨rows, hrows, -⟩ := hretriable.index
  obtain ⟨x, hx, hopened, hstream⟩ := sealSession_midway hrows
  rw [hclose]
  refine ⟨x, mem_bind hids hx, hopened, ?_⟩
  rw [readLines, hstream]
  exact hretriable.stream

/-- A close can die so that the session is never sealed. -/
lemma died_unsealed (hshaped : ∀ l ∈ lessons, wellShaped l = true) (hne : lessons ≠ [])
    (h : Retriable cal sha256 lessons o lines s) (hfree : Free U cal now lessons s.vault) :
    ∃ n, ∀ as, ¬ Sealed cal sha256 lessons o lines (attempts U cal sha256 lessons s (⟨now, some n⟩ :: as)) := by
  obtain ⟨x, hx, hopened, hlines⟩ := closed_midway hshaped hne h hfree
  obtain ⟨n, hn⟩ := exists_after hx
  refine ⟨n, fun as hsealed => h.logged ?_⟩
  have hstuck : attempts U cal sha256 lessons s (⟨now, some n⟩ :: as) = x.2 := by
    rw [attempts, List.foldl_cons, attempt, hn]
    exact attempts_none hopened as
  rw [hstuck] at hsealed
  rw [← hlines, readLines, hsealed.stream]
  rfl

def epochEvent : SessionEvent := ⟨epochISO 0, .zero, ofText "note", ofText "first", none⟩

lemma wellformed_epochEvent : Wellformed epochCalendar epochEvent where
  stamp := by
    have hread : epochCalendar.parse epochEvent.stamp = some 0 := readEpochISO_epochISO 0
    rw [hread]
    rfl
  finite := trivial
  elapsed := by decide
  kind := by decide
  note := by decide
  data := by
    rintro members hmembers
    cases hmembers

def epochStream : Stream := pushLine (fun _ => []) emptyStream (serializeEvent epochEvent)

lemma anchored_emptyStream : Anchored emptyStream := by
  unfold Anchored
  right
  rw [emptyStream]

lemma epochStream_verified : verifyChain epochCalendar (fun _ => []) epochStream.lines epochStream.chain = [] :=
  (verified_push epoch_verified ⟨_, parseEvent_serialize wellformed_epochEvent⟩).mpr anchored_emptyStream

lemma epochStream_logged : epochStream.lines ≠ [] := by
  rw [epochStream, pushLine]
  simp

def epochStore : Store := ⟨.holds epochSession, some epochStream.lines, .holds epochStream.chain, .empty, .absent, ⟨.empty, .absent⟩⟩

def epochLesson : Lesson := ⟨ofText "Say it once", [ofText "D-430"], [], none⟩

lemma epochStore_recorded (statement : JsString) : recorded epochStore.vault statement = 0 := by
  simp [recorded, loaded, epochStore, readLedger, loadEntries]

lemma epochStore_verified : Verified (fun _ => []) epochStore.vault := by
  refine ⟨⟨[], genesis⟩, by simp [epochStore, readLedger], ?_⟩
  simp [verifyDevVault, linkFaults, chainEnd, epochStore, OrderedMap.keys, OrderedMap.empty]

lemma epochStore_retriable : Retriable epochCalendar (fun _ => []) [epochLesson] epochSession epochStream.lines epochStore where
  opened := by rw [epochStore]
  stream := by simp [epochStore, readLines]
  logged := epochStream_logged
  chain := ⟨epochStream.chain, by simp [epochStore, readChain], epochStream_verified⟩
  index := ⟨[], by simp [epochStore, readIndex], by simp, by simp, by simp [epochStore, OrderedMap.keys, OrderedMap.empty]⟩
  vault := by
    refine ⟨by simp [loaded, epochStore, readLedger, loadEntries], fun l _ => ?_, .inl epochStore_verified⟩
    rw [epochStore_recorded]
    decide

lemma epochStore_free : Free Nlcl.ascii epochCalendar 0 [epochLesson] epochStore.vault := by
  refine ⟨fun _ _ _ => ⟨by decide, by decide⟩, fun _ _ _ => by simp [epochStore], ?_⟩
  rintro l hl l' hl' - - -
  rw [List.mem_singleton.mp hl, List.mem_singleton.mp hl']

lemma epochLesson_shaped : ∀ l ∈ [epochLesson], wellShaped l = true := by
  rintro l hl
  rw [List.mem_singleton.mp hl]
  decide

theorem close_retried_epoch : Sealed epochCalendar (fun _ => []) [epochLesson] epochSession epochStream.lines
    (attempts Nlcl.ascii epochCalendar (fun _ => []) [epochLesson] epochStore ([⟨0, some 0⟩] ++ [⟨0, none⟩])) := by
  refine close_retried epochLesson_shaped (List.cons_ne_nil _ _) epochStore_retriable ⟨?_, trivial⟩ epochStore_free
  rintro n hn x hx
  cases hn
  cases hx

theorem close_lost : ¬ ∀ (U : Nlcl.Unicode) (cal : Calendar) (sha256 : Line → JsString) (lessons : List Lesson) (o : OpenSession)
    (lines : List Line) (s : Store) (as : List Attempt), (∀ l ∈ lessons, wellShaped l = true) → lessons ≠ [] →
      Retriable cal sha256 lessons o lines s →
        ∃ later, Sealed cal sha256 lessons o lines (attempts U cal sha256 lessons s (as ++ later)) := by
  intro h
  obtain ⟨n, hn⟩ := died_unsealed epochLesson_shaped (List.cons_ne_nil _ _) epochStore_retriable epochStore_free
  obtain ⟨later, hsealed⟩ := h Nlcl.ascii epochCalendar (fun _ => []) [epochLesson] epochSession epochStream.lines epochStore
    [⟨0, some n⟩] epochLesson_shaped (List.cons_ne_nil _ _) epochStore_retriable
  exact hn later hsealed

end Attempts

end VivimOmega.Gates

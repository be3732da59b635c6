import VivimOmega.Law.Journal

/-! The console's tail of the law's journal: a tick reads the ids, and the rows that it has not seen. -/

namespace VivimOmega.Console

open Library Library.Json Vault Law

section Reading

/-- The journal id family, in chronological order. -/
def journalIds : Handler (List String) := do
  let rows ← vaultCall (.query journalNs (some journalPrefix))
  return (rows.map Listed.id).insertionSort idLe

def getManyPage : ℕ := 512

/-- The pages of a list; the fuel is its length. -/
def pages {α : Type} : ℕ → List α → List (List α)
  | 0, _ => []
  | _ + 1, [] => []
  | n + 1, l => l.take getManyPage :: pages n (l.drop getManyPage)

/-- `typeof v === "object" && v !== null` -/
def isBody : Value → Bool
  | .object _ => true
  | .array _ => true
  | _ => false

def bodyOf (row : String × Option Got) : Option Value := (row.2.map Got.data).filter isBody

def journalBodies (out : List Value) : List (List String) → Handler (List Value)
  | [] => return out
  | page :: rest => do
    let rows ← vaultCall (.getMany journalNs page)
    journalBodies (out ++ rows.filterMap bodyOf) rest

/-- The new rows, and what is seen with them. -/
def journalTail (seen : List String) : Handler (List Value × List String) := do
  let all ← journalIds
  let ids := all.filter fun id => id ∉ seen
  if ids = [] then return ([], seen)
  let rows ← journalBodies [] (pages ids.length ids)
  return (rows, seen ++ ids)

end Reading

section Tail

structure Pump where
  began : ℕ
  task : Process Request Vault.Reply (Except String (List Value × List String))

/-- The law's journal with the vault that it is written to, and the tail of it. -/
structure JournalStream where
  log : Log
  boot : ℕ
  seq : ℕ
  journalled : List String
  appending : List Revision
  appends : ℕ
  stopped : Bool
  seen : List String
  pump : Option Pump
  emitted : List (List Value)
  clean : Bool

inductive JournalEvent
  | boot (time : ℕ)
  | journal (self : JsString) (now : Number) (entry : List (JsString × Value))
  | appended (i : ℕ)
  | lost (i : ℕ)
  | stored (r : Revision)
  | beat
  | served (fault : Fault)
  | stopped

namespace JournalStream

variable (s : JournalStream)

/-- A row of the journal's family. -/
def isJournal (r : Revision) : Bool :=
  r.ns = journalNs && like (escapeLike journalPrefix.toList ++ ['%']) r.id.toList

def rows (log : Log) : List Revision := log.filter isJournal

/-- The tick goes on with its next call, or is over. -/
def resume (began : ℕ) : Process Request Vault.Reply (Except String (List Value × List String)) → JournalStream
  | .done (.ok (rows, seen)) =>
    { s with
      seen := seen
      pump := none
      emitted := if rows = [] then s.emitted else s.emitted ++ [rows]
      clean := s.clean || began == s.appends }
  | .done (.error _) => { s with pump := none }
  | task => { s with pump := some ⟨began, task⟩ }

def step : JournalEvent → Option JournalStream
  | .boot time => some { s with boot := time, seq := 0 }
  | .journal self now entry =>
    if narratesOwnAppend self entry then some s
    else some { s with
      seq := s.seq + 1
      journalled := s.journalled ++ [journalId s.boot (s.seq + 1)]
      appending := s.appending ++ [journalRow s.boot (s.seq + 1) now entry] }
  | .appended i =>
    s.appending[i]?.map fun r => { s with
      appending := s.appending.eraseIdx i
      log := s.log ++ [r]
      appends := s.appends + 1
      clean := false }
  | .lost i => s.appending[i]?.map fun _ => { s with appending := s.appending.eraseIdx i }
  | .stored r => some { s with log := s.log ++ [r] }
  | .beat =>
    if s.stopped || s.pump.isSome then some s
    else some (s.resume s.appends (journalTail s.seen).run)
  | .served fault =>
    match s.pump with
    | some ⟨began, .ask q next⟩ => some (s.resume began (next (port.serve fault s.log q).1))
    | _ => none
  | .stopped => some { s with stopped := true }

end JournalStream

/-- One vault, one tail, and any number of boots of the law. -/
def journalStream : System JournalStream JournalEvent where
  init s := ∃ log boot, boot < 36 ^ 9 ∧ JournalStream.rows log = [] ∧
    s = ⟨log, boot, 0, [], [], 0, false, [], none, [], false⟩
  step := JournalStream.step

/-- Boot times increase, the two fields fit their width, and the family is the journal's. -/
def WithinWidth (s : JournalStream) : JournalEvent → Prop
  | .boot time => s.boot < time ∧ time < 36 ^ 9
  | .journal _ _ _ => s.seq + 1 < 36 ^ 9
  | .stored r => JournalStream.isJournal r = false
  | _ => True

instance decidableWithinWidth (s : JournalStream) : ∀ e, Decidable (WithinWidth s e)
  | .boot time => inferInstanceAs (Decidable (s.boot < time ∧ time < 36 ^ 9))
  | .journal _ _ _ => inferInstanceAs (Decidable (s.seq + 1 < 36 ^ 9))
  | .stored r => inferInstanceAs (Decidable (JournalStream.isJournal r = false))
  | .appended _ => isTrue trivial
  | .lost _ => isTrue trivial
  | .beat => isTrue trivial
  | .served _ => isTrue trivial
  | .stopped => isTrue trivial

end Tail

section Law

namespace JournalStream

variable (s : JournalStream)

/-- No tick is in progress, and one that began after the last append succeeded. -/
def Quiescent : Prop := s.pump = none ∧ s.clean = true

/-- The ids of the events are ordered as the events are; the emitted rows are the rows of the journal, each once, and
within an emission by their ids. -/
structure Faithful : Prop where
  ordered : s.journalled.Pairwise idLt
  known : ∀ r ∈ rows s.log, r.id ∈ s.journalled
  once : s.Quiescent → ∃ batches : List (List Revision), s.emitted = batches.map (·.map Revision.data) ∧
    batches.flatten.Perm (rows s.log) ∧ ∀ batch ∈ batches, batch.Pairwise fun a b => idLt a.id b.id

end JournalStream

end Law

section Pages

variable {α β : Type} {n : ℕ} {l : List α}

lemma pages_flatten (h : l.length ≤ n) : (pages n l).flatten = l := by
  induction n generalizing l with
  | zero =>
    rw [List.eq_nil_of_length_eq_zero (Nat.le_zero.mp h)]
    rfl
  | succ n ih =>
    cases l with
    | nil => rfl
    | cons a l =>
      have hdrop : ((a :: l).drop getManyPage).length ≤ n := by
        rw [List.length_drop, getManyPage]
        omega
      rw [pages, List.flatten_cons, ih hdrop]
      exact List.take_append_drop getManyPage (a :: l)
      exact List.cons_ne_nil a l

lemma pages_map (f : α → β) : pages n (l.map f) = (pages n l).map (List.map f) := by
  induction n generalizing l with
  | zero => rfl
  | succ n ih =>
    cases l with
    | nil => rfl
    | cons a l =>
      have hnext : pages n (((a :: l).map f).drop getManyPage) = (pages n ((a :: l).drop getManyPage)).map (List.map f) := by
        rw [← List.map_drop]
        exact ih
      change ((a :: l).map f).take getManyPage :: pages n (((a :: l).map f).drop getManyPage) =
        (((a :: l).take getManyPage) :: pages n ((a :: l).drop getManyPage)).map (List.map f)
      rw [hnext, ← List.map_take, List.map_cons]

lemma pages_length : ∀ page ∈ pages n l, page.length ≤ getManyPage := by
  induction n generalizing l with
  | zero => exact nofun
  | succ n ih =>
    cases l with
    | nil => exact nofun
    | cons a l =>
      intro page hpage
      obtain rfl | hrest := List.mem_cons.mp hpage
      · exact List.length_take_le _ _
      · exact ih page hrest

lemma pages_ne_nil (h : l ≠ []) : pages l.length l ≠ [] := by
  intro hnil
  have hflat := pages_flatten (le_refl l.length)
  rw [hnil] at hflat
  exact h hflat.symm

end Pages

section Processes

/-- The rest of a tick that has read the ids. -/
def readOn (seen : List String) (out : List Value) (left : List (List String)) :
    Handler (List Value × List String) := do
  let rows ← journalBodies out left
  return (rows, seen)

/-- What is to be read of the ids that a query lists. -/
def unseen (seen : List String) (listed : List Listed) : List String :=
  ((listed.map Listed.id).insertionSort idLe).filter fun id => id ∉ seen

lemma journalTail_run (seen : List String) : (journalTail seen).run =
    .ask (.query journalNs (some journalPrefix)) fun r => match r with
      | .error f => .done (.error (failed (.query journalNs (some journalPrefix)) f))
      | .ok listed =>
        if unseen seen listed = [] then .done (.ok ([], seen))
        else (readOn (seen ++ unseen seen listed) [] (pages (unseen seen listed).length (unseen seen listed))).run := by
  apply congrArg (Process.ask _)
  funext r
  cases r with
  | error f => rfl
  | ok listed =>
    change (ExceptT.run (if unseen seen listed = [] then _ else _)) = _
    dsimp only
    split_ifs <;> rfl

lemma readOn_nil (seen : List String) (out : List Value) : (readOn seen out []).run = .done (.ok (out, seen)) := rfl

lemma readOn_cons (seen : List String) (out : List Value) (page : List String) (left : List (List String)) :
    (readOn seen out (page :: left)).run = .ask (.getMany journalNs page) fun r => match r with
      | .error f => .done (.error (failed (.getMany journalNs page) f))
      | .ok rows => (readOn seen (out ++ rows.filterMap bodyOf) left).run := by
  apply congrArg (Process.ask _)
  funext r
  cases r <;> rfl

end Processes

section Vault

variable {log : Log} {r : Revision}

namespace JournalStream

lemma mem_rows : r ∈ rows log ↔ r ∈ log ∧ isJournal r = true := List.mem_filter

lemma isJournal_ns (h : isJournal r = true) : r.ns = journalNs :=
  of_decide_eq_true ((Bool.and_eq_true _ _).mp h).1

lemma rows_append (log : Log) (r : Revision) : rows (log ++ [r]) = rows log ++ if isJournal r then [r] else [] := by
  rw [rows, List.filter_append, List.filter_singleton]
  cases isJournal r <;> rfl

/-- A row of the journal is what the vault has under its id. -/
lemma got_row (hnodup : ((rows log).map Revision.id).Nodup) (hr : r ∈ rows log) :
    ∃ got, log.got? journalNs r.id = some got ∧ got.data = r.data := by
  obtain ⟨hmem, hjournal⟩ := mem_rows.mp hr
  have hns := isJournal_ns hjournal
  have hrevision : r ∈ log.revisions journalNs r.id := List.mem_filter.mpr ⟨hmem, by simp [hns]⟩
  obtain ⟨last, hlast⟩ : ∃ last, (log.revisions journalNs r.id).getLast? = some last :=
    Option.isSome_iff_exists.mp (by simpa using List.ne_nil_of_mem hrevision)
  obtain ⟨hlastMem, hkey⟩ := List.mem_filter.mp (List.mem_of_getLast? hlast)
  obtain ⟨hlastNs, hlastId⟩ := of_decide_eq_true hkey
  have hlastRow : last ∈ rows log := by
    have hsame : isJournal last = isJournal r := by rw [isJournal, isJournal, hlastNs, hlastId, hns]
    exact mem_rows.mpr ⟨hlastMem, hsame.trans hjournal⟩
  obtain rfl : last = r := List.inj_on_of_nodup_map hnodup hlastRow hr hlastId
  refine ⟨⟨log.rev journalNs last.id, last.data, last.metaData⟩, ?_, rfl⟩
  rw [Log.got?, Log.latest?, hlast]
  rfl

/-- A page of the journal's ids is answered with its rows. -/
lemma answer_page {page : List Revision} (hnodup : ((rows log).map Revision.id).Nodup) (hrows : ∀ r ∈ page, r ∈ rows log)
    (hbody : ∀ r ∈ page, isBody r.data = true) (hids : (page.map Revision.id).Nodup) (hlen : page.length ≤ getManyPage) :
    ∃ answer, log.answer (.getMany journalNs (page.map Revision.id)) = .ok answer ∧
      answer.filterMap bodyOf = page.map Revision.data := by
  have hsame := eraseDups_of_nodup hids
  refine ⟨(page.map Revision.id).map fun id => (id, log.got? journalNs id), ?_, ?_⟩
  · have hbound : ¬ (page.map Revision.id).length > getManyBound := by
      rw [List.length_map]
      exact not_lt.mpr hlen
    rw [Log.answer, hsame, if_neg hbound]
  · rw [List.map_map, List.filterMap_map, ← List.filterMap_eq_map]
    refine List.filterMap_congr fun r hr => ?_
    obtain ⟨got, hgot, hdata⟩ := got_row hnodup (hrows r hr)
    change (Option.map Got.data (log.got? journalNs r.id)).filter isBody = some r.data
    rw [hgot, Option.map_some, hdata, Option.filter_some, hbody r hr, if_pos rfl]

/-- The ids that a query lists are those of the rows. -/
lemma mem_listed {id : String} : id ∈ log.selected journalNs (some journalPrefix) ↔ ∃ r ∈ rows log, r.id = id := by
  rw [Log.selected, List.mem_filter, mem_ids]
  constructor
  · rintro ⟨hne, hlike⟩
    obtain ⟨r, hr⟩ := List.exists_mem_of_ne_nil _ hne
    obtain ⟨hmem, hkey⟩ := List.mem_filter.mp hr
    obtain ⟨hns, rfl⟩ := of_decide_eq_true hkey
    exact ⟨r, mem_rows.mpr ⟨hmem, (Bool.and_eq_true _ _).mpr ⟨decide_eq_true hns, hlike⟩⟩, rfl⟩
  · rintro ⟨r, hr, rfl⟩
    obtain ⟨hmem, hjournal⟩ := mem_rows.mp hr
    refine ⟨?_, ((Bool.and_eq_true _ _).mp hjournal).2⟩
    exact List.ne_nil_of_mem (List.mem_filter.mpr ⟨hmem, by simp [isJournal_ns hjournal]⟩)

lemma exists_rows {ids : List String} (h : ∀ id ∈ ids, ∃ r ∈ rows log, r.id = id) :
    ∃ fresh : List Revision, ids = fresh.map Revision.id ∧ ∀ r ∈ fresh, r ∈ rows log := by
  induction ids with
  | nil => exact ⟨[], rfl, nofun⟩
  | cons id ids ih =>
    obtain ⟨r, hr, rfl⟩ := h id List.mem_cons_self
    obtain ⟨fresh, rfl, hfresh⟩ := ih fun x hx => h x (List.mem_cons_of_mem _ hx)
    exact ⟨r :: fresh, rfl, List.forall_mem_cons.mpr ⟨hr, hfresh⟩⟩

lemma nodup_eraseDups {α : Type} [BEq α] [LawfulBEq α] (l : List α) : l.eraseDups.Nodup := by
  induction h : l.length using Nat.strong_induction_on generalizing l with
  | _ n ih =>
    cases l with
    | nil => exact List.nodup_nil
    | cons a l =>
      rw [List.eraseDups_cons, List.nodup_cons, List.mem_eraseDups]
      have hshort : (l.filter fun b => !b == a).length < n := by
        have hle := List.length_filter_le (fun b => !b == a) l
        rw [List.length_cons] at h
        omega
      exact ⟨by simp, ih _ hshort _ rfl⟩

lemma nodup_selected (log : Log) : (log.selected journalNs (some journalPrefix)).Nodup := by
  rw [Log.selected, Log.ids]
  refine List.Nodup.filter _ ((List.perm_insertionSort _ _).nodup_iff.mpr ?_)
  exact nodup_eraseDups _

lemma idLe_total (a b : String) : idLe a b ∨ idLe b a := le_total (unitsOf a) (unitsOf b)

lemma idLe_trans (a b c : String) (hab : idLe a b) (hbc : idLe b c) : idLe a c := le_trans hab hbc

lemma pairwise_idLt {ids : List String} (hnodup : ids.Nodup) : (ids.insertionSort idLe).Pairwise idLt := by
  have hsorted : (ids.insertionSort idLe).Pairwise idLe := by
    have : Std.Total idLe := ⟨idLe_total⟩
    have : IsTrans String idLe := ⟨idLe_trans⟩
    exact List.pairwise_insertionSort idLe ids
  have hnodup' : (ids.insertionSort idLe).Nodup := (List.perm_insertionSort _ _).nodup_iff.mpr hnodup
  refine (hsorted.and hnodup').imp fun ⟨hle, hne⟩ => ?_
  exact lt_of_le_of_ne hle fun heq => hne (unitsOf_injective heq)

/-- What is to be read after a query are rows that were not seen, in the order of their ids. -/
lemma unseen_rows (seen : List String) {listed : List Listed}
    (hlisted : log.answer (.query journalNs (some journalPrefix)) = .ok listed) :
    ∃ fresh : List Revision, unseen seen listed = fresh.map Revision.id ∧ (∀ r ∈ fresh, r ∈ rows log) ∧
      (fresh.Pairwise fun a b => idLt a.id b.id) ∧ (∀ r ∈ fresh, r.id ∉ seen) ∧
      ∀ r ∈ rows log, r.id ∈ seen ∨ r.id ∈ fresh.map Revision.id := by
  obtain rfl := Except.ok.inj hlisted
  have hids : ∀ id, id ∈ unseen seen ((log.selected journalNs (some journalPrefix)).map fun id => ⟨id, log.rev journalNs id⟩) ↔
      (∃ r ∈ rows log, r.id = id) ∧ id ∉ seen := by
    intro id
    rw [unseen, List.map_map, List.mem_filter, List.mem_insertionSort, decide_eq_true_eq, ← mem_listed]
    simp
  have hmap : ((log.selected journalNs (some journalPrefix)).map fun id => (⟨id, log.rev journalNs id⟩ : Listed)).map
      Listed.id = log.selected journalNs (some journalPrefix) := by
    rw [List.map_map]
    exact List.map_id' _
  obtain ⟨fresh, hfresh, hrows⟩ := exists_rows fun id hid => ((hids id).mp hid).1
  refine ⟨fresh, hfresh, hrows, ?_, fun r hr => ?_, fun r hr => ?_⟩
  · rw [← List.pairwise_map, ← hfresh, unseen, hmap]
    exact (pairwise_idLt (nodup_selected log)).filter _
  · exact ((hids r.id).mp (hfresh ▸ List.mem_map_of_mem hr)).2
  · by_cases hseen : r.id ∈ seen
    · exact Or.inl hseen
    · refine Or.inr ?_
      rw [← hfresh]
      exact (hids r.id).mpr ⟨⟨r, hr, rfl⟩, hseen⟩

end JournalStream

end Vault

section Invariant

variable {s t : JournalStream} {began : ℕ}

namespace JournalStream

/-- The rows that a tick reads: in the order of their ids, and not seen. -/
structure Fresh (s : JournalStream) (began : ℕ) (fresh : List Revision) : Prop where
  rows : ∀ r ∈ fresh, r ∈ rows s.log
  sorted : fresh.Pairwise fun a b => idLt a.id b.id
  unseen : ∀ r ∈ fresh, r.id ∉ s.seen
  all : began = s.appends → ∀ r ∈ JournalStream.rows s.log, r.id ∈ s.seen ∨ r.id ∈ fresh.map Revision.id

/-- A tick waits for the ids, or for the next page of what it reads. -/
def Waits (s : JournalStream) (pump : Pump) : Prop :=
  pump.task = (journalTail s.seen).run ∨ ∃ past page left,
    pump.task = (readOn (s.seen ++ (past ++ page ++ left.flatten).map Revision.id) (past.map Revision.data)
      ((page :: left).map (List.map Revision.id))).run ∧
      s.Fresh pump.began (past ++ page ++ left.flatten) ∧ ∀ p ∈ page :: left, p.length ≤ getManyPage

/-- What was emitted. -/
def Shown (s : JournalStream) (batches : List (List Revision)) : Prop :=
  s.emitted = batches.map (·.map Revision.data) ∧ s.seen = batches.flatten.map Revision.id ∧ s.seen.Nodup ∧
    ∀ batch ∈ batches, (∀ r ∈ batch, r ∈ rows s.log) ∧ batch.Pairwise fun a b => idLt a.id b.id

structure Sound (s : JournalStream) : Prop where
  ordered : s.journalled.Pairwise idLt
  booted : s.boot < 36 ^ 9
  numbered : ∀ id ∈ s.journalled, ∃ boot seq, id = journalId boot seq ∧ (boot < s.boot ∨ boot = s.boot ∧ seq ≤ s.seq)
  nodup : ((s.appending ++ rows s.log).map Revision.id).Nodup
  known : ∀ r ∈ s.appending ++ rows s.log, r.id ∈ s.journalled ∧ isBody r.data = true ∧ isJournal r = true
  shown : ∃ batches, s.Shown batches
  began : ∀ pump ∈ s.pump, pump.began ≤ s.appends ∧ s.Waits pump
  clean : s.clean = true → ∀ r ∈ rows s.log, r.id ∈ s.seen

variable {fresh : List Revision} {batches : List (List Revision)}

lemma Sound.rows_nodup (h : s.Sound) : ((rows s.log).map Revision.id).Nodup := by
  have hall := h.nodup
  rw [List.map_append] at hall
  exact hall.of_append_right

/-- The tail has the same to do when what it looks at is the same, and there are no fewer appends than before. -/
lemma Waits.keep {pump : Pump} (h : s.Waits pump) (hseen : t.seen = s.seen) (hlog : ∀ r ∈ rows s.log, r ∈ rows t.log)
    (hall : pump.began = t.appends → pump.began = s.appends ∧ rows t.log = rows s.log) : t.Waits pump := by
  obtain htail | ⟨past, page, left, htask, hfresh, hpages⟩ := h
  · refine Or.inl ?_
    rw [hseen]
    exact htail
  · refine Or.inr ⟨past, page, left, ?_, ⟨fun r hr => hlog r (hfresh.rows r hr), hfresh.sorted, ?_, ?_⟩, hpages⟩
    · rw [hseen]
      exact htask
    · rw [hseen]
      exact hfresh.unseen
    · intro hbegan
      obtain ⟨hsame, hrows⟩ := hall hbegan
      rw [hrows, hseen]
      exact hfresh.all hsame

lemma Shown.keep (h : s.Shown batches) (hseen : t.seen = s.seen) (hemitted : t.emitted = s.emitted)
    (hlog : ∀ r ∈ rows s.log, r ∈ rows t.log) : t.Shown batches := by
  obtain ⟨hdata, hids, hnodup, hbatches⟩ := h
  refine ⟨hemitted.trans hdata, hseen.trans hids, hseen ▸ hnodup, fun batch hb => ?_⟩
  exact ⟨fun r hr => hlog r ((hbatches batch hb).1 r hr), (hbatches batch hb).2⟩

/-- The law's own steps leave the log alone, and the vault's the tail. -/
lemma Sound.law (h : s.Sound) {boot seq : ℕ} {journalled : List String} {appending : List Revision}
    (hordered : journalled.Pairwise idLt) (hbooted : boot < 36 ^ 9)
    (hnumbered : ∀ id ∈ journalled, ∃ b q, id = journalId b q ∧ (b < boot ∨ b = boot ∧ q ≤ seq))
    (hnodup : ((appending ++ rows s.log).map Revision.id).Nodup)
    (hknown : ∀ r ∈ appending ++ rows s.log, r.id ∈ journalled ∧ isBody r.data = true ∧ isJournal r = true) :
    { s with boot := boot, seq := seq, journalled := journalled, appending := appending : JournalStream }.Sound where
  ordered := hordered
  booted := hbooted
  numbered := hnumbered
  nodup := hnodup
  known := hknown
  shown := by
    obtain ⟨batches, hshown⟩ := h.shown
    exact ⟨batches, hshown.keep rfl rfl fun _ hr => hr⟩
  began := fun pump hpump => ⟨(h.began pump hpump).1, (h.began pump hpump).2.keep rfl (fun _ hr => hr) fun hb => ⟨hb, rfl⟩⟩
  clean := h.clean

lemma Sound.boot (h : s.Sound) {time : ℕ} (htime : s.boot < time ∧ time < 36 ^ 9) :
    { s with boot := time, seq := 0 : JournalStream }.Sound := by
  refine h.law h.ordered htime.2 (fun id hid => ?_) h.nodup h.known
  obtain ⟨b, q, rfl, hb⟩ := h.numbered id hid
  refine ⟨b, q, rfl, Or.inl ?_⟩
  obtain hlt | ⟨rfl, _⟩ := hb
  · exact hlt.trans htime.1
  · exact htime.1

lemma isJournal_journalRow (boot seq : ℕ) (now : Number) (entry : List (JsString × Value)) :
    isJournal (journalRow boot seq now entry) = true := by
  refine (Bool.and_eq_true _ _).mpr ⟨decide_eq_true rfl, ?_⟩
  rw [like_escapeLike]
  dsimp only [journalRow]
  rw [journalId, String.append_assoc, String.append_assoc, String.toList_append, List.map_append]
  exact List.prefix_append _ _

lemma Sound.journal (h : s.Sound) (hseq : s.seq + 1 < 36 ^ 9) (now : Number) (entry : List (JsString × Value)) :
    { s with
      seq := s.seq + 1
      journalled := s.journalled ++ [journalId s.boot (s.seq + 1)]
      appending := s.appending ++ [journalRow s.boot (s.seq + 1) now entry] : JournalStream }.Sound := by
  have hless : ∀ id ∈ s.journalled, idLt id (journalId s.boot (s.seq + 1)) := by
    intro id hid
    obtain ⟨b, q, rfl, hb⟩ := h.numbered id hid
    refine idLt_journalId ?_ h.booted hseq
    exact hb.imp_right fun ⟨heq, hle⟩ => ⟨heq, Nat.lt_succ_of_le hle⟩
  have hnew : journalId s.boot (s.seq + 1) ∉ (s.appending ++ rows s.log).map Revision.id := by
    intro hmem
    obtain ⟨r, hr, hid⟩ := List.mem_map.mp hmem
    have hlt := hless r.id (h.known r hr).1
    rw [hid] at hlt
    exact lt_irrefl _ hlt
  have hperm : (s.appending ++ [journalRow s.boot (s.seq + 1) now entry] ++ rows s.log).Perm
      (journalRow s.boot (s.seq + 1) now entry :: (s.appending ++ rows s.log)) := by
    rw [List.append_assoc]
    exact List.perm_middle
  refine h.law ?_ h.booted ?_ ?_ ?_
  · exact List.pairwise_append.mpr ⟨h.ordered, List.pairwise_singleton _ _, fun a ha b hb => by
      rw [List.mem_singleton.mp hb]
      exact hless a ha⟩
  · intro id hid
    obtain hold | hid := List.mem_append.mp hid
    · obtain ⟨b, q, rfl, hb⟩ := h.numbered id hold
      exact ⟨b, q, rfl, hb.imp_right fun ⟨heq, hle⟩ => ⟨heq, Nat.le_succ_of_le hle⟩⟩
    · exact ⟨s.boot, s.seq + 1, List.mem_singleton.mp hid, Or.inr ⟨rfl, le_rfl⟩⟩
  · exact ((hperm.map Revision.id).nodup_iff).mpr (List.nodup_cons.mpr ⟨hnew, h.nodup⟩)
  · intro r hr
    obtain rfl | hold := List.mem_cons.mp (hperm.mem_iff.mp hr)
    · exact ⟨List.mem_append_right _ (List.mem_singleton_self _), rfl, isJournal_journalRow _ _ _ _⟩
    · obtain ⟨hid, hrest⟩ := h.known r hold
      exact ⟨List.mem_append_left _ hid, hrest⟩

lemma eraseIdx_perm {i : ℕ} {l : List Revision} {r : Revision} (hi : l[i]? = some r) : (r :: l.eraseIdx i).Perm l := by
  obtain ⟨hlt, rfl⟩ := List.getElem?_eq_some_iff.mp hi
  exact List.getElem_cons_eraseIdx_perm hlt

/-- A row comes to the log; a tick that began before is not the last word. -/
lemma Sound.appended (h : s.Sound) {i : ℕ} {r : Revision} (hi : s.appending[i]? = some r) :
    { s with
      appending := s.appending.eraseIdx i
      log := s.log ++ [r]
      appends := s.appends + 1
      clean := false : JournalStream }.Sound := by
  have hjournal := (h.known r (List.mem_append_left _ (List.mem_of_getElem? hi))).2.2
  have hrows : rows (s.log ++ [r]) = rows s.log ++ [r] := by rw [rows_append, if_pos hjournal]
  have hperm : (s.appending.eraseIdx i ++ rows (s.log ++ [r])).Perm (s.appending ++ rows s.log) := by
    rw [hrows, ← List.append_assoc]
    have hsnoc := List.perm_append_singleton r (s.appending.eraseIdx i ++ rows s.log)
    exact hsnoc.trans ((eraseIdx_perm hi).append_right (rows s.log))
  have hlog : ∀ x ∈ rows s.log, x ∈ rows (s.log ++ [r]) := fun x hx => hrows ▸ List.mem_append_left _ hx
  exact {
    ordered := h.ordered
    booted := h.booted
    numbered := h.numbered
    nodup := ((hperm.map Revision.id).nodup_iff).mpr h.nodup
    known := fun x hx => h.known x (hperm.mem_iff.mp hx)
    shown := by
      obtain ⟨batches, hshown⟩ := h.shown
      exact ⟨batches, hshown.keep rfl rfl hlog⟩
    began := fun pump hpump => by
      obtain ⟨hle, hwaits⟩ := h.began pump hpump
      refine ⟨Nat.le_succ_of_le hle, hwaits.keep rfl hlog fun hbegan => ?_⟩
      have hsucc : pump.began = s.appends + 1 := hbegan
      omega
    clean := fun hclean => by cases hclean }

lemma Sound.lost (h : s.Sound) {i : ℕ} : { s with appending := s.appending.eraseIdx i : JournalStream }.Sound := by
  have hsub : (s.appending.eraseIdx i ++ rows s.log).Sublist (s.appending ++ rows s.log) :=
    (List.eraseIdx_sublist _ _).append_right _
  exact h.law h.ordered h.booted h.numbered (h.nodup.sublist (hsub.map _)) fun r hr => h.known r (hsub.subset hr)

lemma Sound.stored (h : s.Sound) {r : Revision} (hr : isJournal r = false) :
    { s with log := s.log ++ [r] : JournalStream }.Sound := by
  have hrows : rows (s.log ++ [r]) = rows s.log := by
    rw [rows_append, hr, if_neg Bool.false_ne_true, List.append_nil]
  have hlog : ∀ x ∈ rows s.log, x ∈ rows (s.log ++ [r]) := fun x hx => hrows ▸ hx
  exact {
    ordered := h.ordered
    booted := h.booted
    numbered := h.numbered
    nodup := hrows ▸ h.nodup
    known := hrows ▸ h.known
    shown := by
      obtain ⟨batches, hshown⟩ := h.shown
      exact ⟨batches, hshown.keep rfl rfl hlog⟩
    began := fun pump hpump =>
      ⟨(h.began pump hpump).1, (h.began pump hpump).2.keep rfl hlog fun hbegan => ⟨hbegan, hrows⟩⟩
    clean := hrows ▸ h.clean }

/-- The tail's own steps: what is seen, shown, and still to be done. -/
lemma Sound.tail (h : s.Sound) {seen : List String} {pump : Option Pump} {emitted : List (List Value)} {clean : Bool}
    (hshown : ∃ batches, { s with seen := seen, pump := pump, emitted := emitted, clean := clean : JournalStream }.Shown
      batches)
    (hbegan : ∀ p ∈ pump, p.began ≤ s.appends ∧
      { s with seen := seen, pump := pump, emitted := emitted, clean := clean : JournalStream }.Waits p)
    (hclean : clean = true → ∀ r ∈ rows s.log, r.id ∈ seen) :
    { s with seen := seen, pump := pump, emitted := emitted, clean := clean : JournalStream }.Sound :=
  ⟨h.ordered, h.booted, h.numbered, h.nodup, h.known, hshown, hbegan, hclean⟩

lemma Sound.waiting (h : s.Sound) {pump : Pump} (hbegan : pump.began ≤ s.appends) (hwaits : s.Waits pump) :
    { s with pump := some pump : JournalStream }.Sound := by
  obtain ⟨batches, hshown⟩ := h.shown
  refine h.tail ⟨batches, hshown⟩ (fun p hp => ?_) h.clean
  obtain rfl := Option.some.inj hp
  exact ⟨hbegan, hwaits.keep rfl (fun _ hr => hr) fun hb => ⟨hb, rfl⟩⟩

lemma Sound.skipped (h : s.Sound) : { s with pump := none : JournalStream }.Sound := by
  obtain ⟨batches, hshown⟩ := h.shown
  exact h.tail ⟨batches, hshown⟩ nofun h.clean

lemma Sound.beat (h : s.Sound) : (s.resume s.appends (journalTail s.seen).run).Sound := by
  have hask : (journalTail s.seen).run = _ := journalTail_run s.seen
  have hresume : s.resume s.appends (journalTail s.seen).run =
      { s with pump := some ⟨s.appends, (journalTail s.seen).run⟩ } := by
    rw [hask]
    rfl
  rw [hresume]
  exact h.waiting le_rfl (Or.inl rfl)

/-- A tick that has read all its rows shows them. -/
lemma Sound.finished (h : s.Sound) (hfresh : s.Fresh began fresh) :
    (s.resume began (.done (.ok (fresh.map Revision.data, s.seen ++ fresh.map Revision.id)))).Sound := by
  obtain ⟨batches, hdata, hids, hnodup, hbatches⟩ := h.shown
  have hfreshNodup : (fresh.map Revision.id).Nodup := by
    rw [List.Nodup, List.pairwise_map]
    refine hfresh.sorted.imp fun hlt heq => ?_
    rw [heq] at hlt
    exact lt_irrefl _ hlt
  have hseen : (s.seen ++ fresh.map Revision.id).Nodup := by
    refine hnodup.append hfreshNodup fun id hold hnew => ?_
    obtain ⟨r, hr, rfl⟩ := List.mem_map.mp hnew
    exact hfresh.unseen r hr hold
  refine h.tail ?_ nofun fun hclean r hr => ?_
  · by_cases hempty : fresh = []
    · subst hempty
      refine ⟨batches, ?_, ?_, hseen, hbatches⟩
      · exact hdata
      · exact (List.append_nil _).trans hids
    · refine ⟨batches ++ [fresh], ?_, ?_, hseen, ?_⟩
      · rw [if_neg (by simpa using hempty), hdata, List.map_append]
        rfl
      · rw [List.flatten_concat, List.map_append, ← hids]
      · intro batch hb
        obtain hold | hnew := List.mem_append.mp hb
        · exact hbatches batch hold
        · rw [List.mem_singleton.mp hnew]
          exact ⟨hfresh.rows, hfresh.sorted⟩
  · obtain hold | hnow := (Bool.or_eq_true _ _).mp hclean
    · exact List.mem_append_left _ (h.clean hold r hr)
    · exact List.mem_append.mpr (hfresh.all (beq_iff_eq.mp hnow) r hr)

/-- A tick with pages left waits for the next one, and one without is over. -/
lemma Sound.reading (h : s.Sound) (hbegan : began ≤ s.appends) (past : List Revision) (left : List (List Revision))
    (hfresh : s.Fresh began (past ++ left.flatten)) (hpages : ∀ p ∈ left, p.length ≤ getManyPage) :
    (s.resume began (readOn (s.seen ++ (past ++ left.flatten).map Revision.id) (past.map Revision.data)
      (left.map (List.map Revision.id))).run).Sound := by
  cases left with
  | nil =>
    rw [List.flatten_nil, List.append_nil] at hfresh ⊢
    rw [List.map_nil, readOn_nil]
    exact h.finished hfresh
  | cons page left =>
    rw [List.flatten_cons, ← List.append_assoc] at hfresh ⊢
    have hwaits : s.Waits ⟨began, (readOn (s.seen ++ (past ++ page ++ left.flatten).map Revision.id)
        (past.map Revision.data) ((page :: left).map (List.map Revision.id))).run⟩ :=
      Or.inr ⟨past, page, left, rfl, hfresh, hpages⟩
    have hsound := h.waiting hbegan hwaits
    rw [List.map_cons, readOn_cons] at hsound ⊢
    exact hsound

lemma Sound.ids_served (h : s.Sound) (hbegan : began ≤ s.appends) {listed : List Listed}
    (hanswer : s.log.answer (.query journalNs (some journalPrefix)) = .ok listed) :
    (s.resume began (if unseen s.seen listed = [] then .done (.ok ([], s.seen))
      else (readOn (s.seen ++ unseen s.seen listed) []
        (pages (unseen s.seen listed).length (unseen s.seen listed))).run)).Sound := by
  obtain ⟨fresh, hunseen, hrows, hsorted, hnew, hall⟩ := unseen_rows s.seen hanswer
  have hfresh : s.Fresh began fresh := ⟨hrows, hsorted, hnew, fun _ => hall⟩
  rw [hunseen]
  split_ifs with hempty
  · have hnone : fresh = [] := List.map_eq_nil_iff.mp hempty
    subst hnone
    have hdone := h.finished hfresh
    rw [List.map_nil, List.map_nil, List.append_nil] at hdone
    exact hdone
  · have hflat : (pages fresh.length fresh).flatten = fresh := pages_flatten le_rfl
    have hread := h.reading hbegan [] (pages fresh.length fresh) (by rw [hflat]; exact hfresh) pages_length
    rw [hflat, ← pages_map] at hread
    rw [List.length_map]
    exact hread

lemma Sound.page_served (h : s.Sound) (hbegan : began ≤ s.appends) {past page : List Revision}
    {left : List (List Revision)} (hfresh : s.Fresh began (past ++ page ++ left.flatten))
    (hpages : ∀ p ∈ page :: left, p.length ≤ getManyPage) {got : List (String × Option Got)}
    (hanswer : s.log.answer (.getMany journalNs (page.map Revision.id)) = .ok got) :
    (s.resume began (readOn (s.seen ++ (past ++ page ++ left.flatten).map Revision.id)
      (past.map Revision.data ++ got.filterMap bodyOf) (left.map (List.map Revision.id))).run).Sound := by
  have hpage : ∀ r ∈ page, r ∈ rows s.log := fun r hr =>
    hfresh.rows r (List.mem_append_left _ (List.mem_append_right _ hr))
  have hbody : ∀ r ∈ page, isBody r.data = true := fun r hr => (h.known r (List.mem_append_right _ (hpage r hr))).2.1
  have hids : (page.map Revision.id).Nodup := by
    rw [List.Nodup, List.pairwise_map]
    have hsorted := (List.pairwise_append.mp (List.pairwise_append.mp hfresh.sorted).1).2.1
    refine hsorted.imp fun hlt heq => ?_
    rw [heq] at hlt
    exact lt_irrefl _ hlt
  obtain ⟨answer, hgot, hdata⟩ := answer_page h.rows_nodup hpage hbody hids (hpages page List.mem_cons_self)
  obtain rfl := Except.ok.inj (hgot.symm.trans hanswer)
  rw [hdata, ← List.map_append]
  exact h.reading hbegan _ _ hfresh fun p hp => hpages p (List.mem_cons_of_mem _ hp)

lemma Sound.served (h : s.Sound) {q : Request} {next : Vault.Reply q → Process Request Vault.Reply (Except String _)} {fault : Fault}
    (hpump : s.pump = some ⟨began, .ask q next⟩) :
    (s.resume began (next (port.serve fault s.log q).1)).Sound := by
  obtain ⟨hbegan, hwaits⟩ := h.began _ hpump
  obtain htail | ⟨past, page, left, htask, hfresh, hpages⟩ := hwaits
  · dsimp only at htail
    rw [journalTail_run] at htail
    cases htail
    cases hreply : (port.serve fault s.log (.query journalNs (some journalPrefix))).1 with
    | error f => exact h.skipped
    | ok listed => exact h.ids_served hbegan (serve_ok hreply).2
  · dsimp only at htask
    rw [List.map_cons, readOn_cons] at htask
    cases htask
    cases hreply : (port.serve fault s.log (.getMany journalNs (page.map Revision.id))).1 with
    | error f => exact h.skipped
    | ok got => exact h.page_served hbegan hfresh hpages (serve_ok hreply).2

lemma Sound.step (h : s.Sound) {e : JournalEvent} (hok : WithinWidth s e) (hstep : s.step e = some t) : t.Sound := by
  cases e with
  | boot time =>
    cases hstep
    exact h.boot hok
  | journal self now entry =>
    rw [JournalStream.step] at hstep
    split_ifs at hstep
    · cases hstep
      exact h
    · cases hstep
      exact h.journal hok now entry
  | appended i =>
    obtain ⟨r, hr, rfl⟩ := Option.map_eq_some_iff.mp hstep
    exact h.appended hr
  | lost i =>
    obtain ⟨r, hr, rfl⟩ := Option.map_eq_some_iff.mp hstep
    exact h.lost
  | stored r =>
    cases hstep
    exact h.stored hok
  | beat =>
    rw [JournalStream.step] at hstep
    split_ifs at hstep
    · cases hstep
      exact h
    · cases hstep
      exact h.beat
  | served fault =>
    rw [JournalStream.step] at hstep
    split at hstep
    · next began q next hpump =>
      cases hstep
      exact h.served hpump
    · cases hstep
  | stopped =>
    cases hstep
    exact { h with
      shown := by
        obtain ⟨batches, hshown⟩ := h.shown
        exact ⟨batches, hshown.keep rfl rfl fun _ hr => hr⟩
      began := fun pump hpump =>
        ⟨(h.began pump hpump).1, (h.began pump hpump).2.keep rfl (fun _ hr => hr) fun hb => ⟨hb, rfl⟩⟩ }

lemma sound_init {log : Log} {boot : ℕ} (hboot : boot < 36 ^ 9) (hrows : rows log = []) :
    (⟨log, boot, 0, [], [], 0, false, [], none, [], false⟩ : JournalStream).Sound where
  ordered := List.Pairwise.nil
  booted := hboot
  numbered := nofun
  nodup := by
    rw [hrows]
    exact List.nodup_nil
  known := by
    rw [hrows]
    exact nofun
  shown := ⟨[], rfl, rfl, List.nodup_nil, nofun⟩
  began := nofun
  clean hclean := by cases hclean

lemma Sound.faithful (h : s.Sound) : s.Faithful := by
  refine ⟨h.ordered, fun r hr => (h.known r (List.mem_append_right _ hr)).1, fun ⟨_, hclean⟩ => ?_⟩
  obtain ⟨batches, hdata, hids, hnodup, hbatches⟩ := h.shown
  refine ⟨batches, hdata, ?_, fun batch hb => (hbatches batch hb).2⟩
  rw [hids] at hnodup
  refine (List.perm_ext_iff_of_nodup (List.Nodup.of_map _ hnodup) (List.Nodup.of_map _ h.rows_nodup)).mpr fun r => ?_
  have hmem : ∀ x ∈ batches.flatten, x ∈ rows s.log := by
    intro x hx
    obtain ⟨batch, hb, hxb⟩ := List.mem_flatten.mp hx
    exact (hbatches batch hb).1 x hxb
  refine ⟨hmem r, fun hr => ?_⟩
  have hseen := h.clean hclean r hr
  rw [hids] at hseen
  obtain ⟨x, hx, hid⟩ := List.mem_map.mp hseen
  obtain rfl := List.inj_on_of_nodup_map h.rows_nodup (hmem x hx) hr hid
  exact hx

/-- The journal's ids are in the order of its events over all the boots, and a tail at rest has shown every row once. -/
theorem journal_exactly_once (s : JournalStream) (h : journalStream.Reachable WithinWidth s) : s.Faithful := by
  refine (h.invariant (P := Sound) ?_ fun _ _ _ _ hs hok hstep => hs.step hok hstep).faithful
  rintro s ⟨log, boot, hboot, hrows, rfl⟩
  exact sound_init hboot hrows

def journalEvent : JournalEvent := .journal (ofText "vivim.law") .zero [(ofText "op", .string (ofText "law.check"))]

/-- Two appends that complete in the other order, a page that fails, and a row of the next boot. -/
def twoBoots : List JournalEvent :=
  [journalEvent, journalEvent, .appended 1, .beat, .served .none, .served .none, .boot 37, .appended 0, journalEvent,
    .appended 0, .beat, .served .none, .served (.refused ⟨.degraded, "busy"⟩), .beat, .served .none, .served .none]

theorem journal_two_boots : ∃ s : JournalStream, s.Quiescent ∧ (rows s.log).length = 3 ∧ s.emitted.map List.length = [1, 2] ∧
    s.Faithful := by
  have hinit : journalStream.init ⟨[], 36, 0, [], [], 0, false, [], none, [], false⟩ := ⟨[], 36, by decide, rfl, rfl⟩
  have hrun : (journalStream.exec WithinWidth ⟨[], 36, 0, [], [], 0, false, [], none, [], false⟩ twoBoots).map
      (fun s => s.pump.isNone && s.clean && decide ((rows s.log).length = 3) &&
        decide (s.emitted.map List.length = [1, 2])) = some true := by
    decide +kernel
  obtain ⟨s, hreach, hs⟩ := System.exec_spec hinit hrun
  simp only [Bool.and_eq_true, Option.isNone_iff_eq_none, decide_eq_true_eq] at hs
  obtain ⟨⟨⟨hpump, hclean⟩, hrows⟩, hemitted⟩ := hs
  exact ⟨s, ⟨hpump, hclean⟩, hrows, hemitted, journal_exactly_once s hreach⟩

end JournalStream

end Invariant

end VivimOmega.Console

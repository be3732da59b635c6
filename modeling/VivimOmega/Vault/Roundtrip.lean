import VivimOmega.Vault.Tamper

/-! The roundtrip: a copy of the vault into another directory, and the verdict on the copy. -/

namespace VivimOmega.Vault

open Library Library.Json Library.Sha256 Program

structure RoundtripResult where
  ok : Bool
  entries : ℕ
  headHash : String
  detail : Option String
  blobsCopied : ℕ

/-- The components of an absolute path, with `.` and `..` resolved. -/
def resolve (path : String) : List String :=
  ((path.toList.splitOn '/').map String.ofList).foldl (fun root part =>
    if part = "" ∨ part = "." then root else if part = ".." then root.dropLast else root ++ [part]) []

/-- The components of the way from one directory to another. -/
def relative : List String → List String → List String
  | a :: src, b :: dst => if a = b then relative src dst else List.replicate (src.length + 1) ".." ++ b :: dst
  | src, dst => List.replicate src.length ".." ++ dst

def inside (rel : List String) : Bool :=
  match rel with
  | [] => true
  | part :: _ => !Text.startsWith part ".."

def requireTarget (srcRoot : List String) (targetDir : Value) : Except String (List String) :=
  let refusal := "vault.roundtrip@1: targetDir must be an absolute path (got " ++ jsString targetDir ++ ")"
  match targetDir with
  | .string s =>
    if Text.startsWith (toText s) "/" then
      let dstRoot := resolve (toText s)
      if inside (relative srcRoot dstRoot) ∨ inside (relative dstRoot srcRoot) then
        throw ("vault.roundtrip@1: targetDir must be disjoint from the vault dataDir (/" ++
          "/".intercalate srcRoot ++ ")")
      else return dstRoot
    else throw refusal
  | _ => throw refusal

/-- What the search index holds of a row: nothing, where its blob cannot be read. -/
def ftsBody (cas : OrderedMap String String) (cid : String) : Option String :=
  match casGet cas cid >>= bodyText with
  | .ok body => some body
  | .error _ => none

def rebuildFts (cas : OrderedMap String String) : List ObjectRow → Sql Unit
  | [] => pure ()
  | row :: rest =>
    match ftsBody cas row.cid with
    | some body => do
      ftsInsert row.ns row.id row.rev body
      rebuildFts cas rest
    | none => rebuildFts cas rest

def insertRows {K R : Type} [DecidableEq K] {key : R → K} (ref : TableRef K R key) : List R → Sql Unit
  | [] => pure ()
  | row :: rest => do
    ref.insert row
    insertRows ref rest

/-- Everything is inserted into what the target holds already. -/
def copyTables (src : Tables) (cas : OrderedMap String String) : Sql Unit := do
  control
  insertRows changelogRef (sortedLog src)
  insertRows objectsRef src.objects.rows
  insertRows coldRef src.coldObjects.rows
  rebuildFts cas src.objects.rows
  control

/-- What the environment makes fail: the copy of the blobs after so many of them, or a statement. -/
structure CopyFaults where
  blobs : Option (ℕ × String)
  sql : Option (ℕ × String)

/-- The vault copied into a target directory with the content given; a call that throws leaves the
tables of the target alone. -/
def roundtrip (v : VaultDB) (srcRoot : List String) (targetDir : Value) (target : VaultDB)
    (faults : CopyFaults) : Except String RoundtripResult × VaultDB :=
  match requireTarget srcRoot targetDir with
  | .error e => (.error e, target)
  | .ok _ =>
    match faults.blobs with
    | some (n, error) => (.error error, { target with cas := copyBlobs (v.cas.entries.take n) target.cas })
    | none =>
      let cas := casCopyAll v.cas target.cas
      let (result, tables) := transaction (copyTables v.tables cas) target.tables faults.sql
      let copy : VaultDB := ⟨tables, cas⟩
      match result with
      | .error e => (.error e, copy)
      | .ok _ =>
        let verdict := verify copy
        (.ok ⟨verdict.ok, verdict.entries, verdict.headHash, verdict.detail,
          v.cas.entries.countP fun blob => wellFormedCid blob.1⟩, copy)

section Copy

variable {v w : VaultDB} {t u : Tables} {cas : OrderedMap String String}

/-- The search rows that the blobs give. -/
def rebuilt (cas : OrderedMap String String) (rows : List ObjectRow) : List FtsRow :=
  rows.filterMap fun r => (ftsBody cas r.cid).map fun body => ⟨r.ns, r.id, r.rev, body⟩

/-- The rows of both, where no key is in both. -/
def merge? (src t : Tables) (cas : OrderedMap String String) : Option Tables := do
  let changelog ← t.changelog.insertAll? (sortedLog src)
  let objects ← t.objects.insertAll? src.objects.rows
  let coldObjects ← t.coldObjects.insertAll? src.coldObjects.rows
  return ⟨objects, coldObjects, changelog, t.ftsIndex ++ rebuilt cas src.objects.rows⟩

section Rows

variable {K R : Type} [DecidableEq K] {key : R → K} (ref : TableRef K R key) {rows : List R}

lemma runs_insertRows {a : Unit} (h : Runs (insertRows ref rows) t a u) :
    ∃ table, (ref.get t).insertAll? rows = some table ∧ u = ref.put t table := by
  induction rows generalizing t with
  | nil =>
    obtain ⟨_, rfl⟩ := runs_pure h
    exact ⟨ref.get _, rfl, (ref.put_get _).symm⟩
  | cons row rest ih =>
    obtain ⟨table, hinsert, hrest⟩ := insert_ok ref h
    obtain ⟨all, hall, rfl⟩ := ih hrest
    rw [ref.get_put] at hall
    refine ⟨all, ?_, ref.put_put _ _ _⟩
    rw [Table.insertAll?, hinsert]
    exact hall

lemma completes_insertRows {table : Table K R key} (h : (ref.get t).insertAll? rows = some table) :
    Completes (insertRows ref rows) t () (ref.put t table) := by
  induction rows generalizing t with
  | nil =>
    cases h
    rw [ref.put_get]
    exact completes_pure () t
  | cons row rest ih =>
    rw [Table.insertAll?] at h
    obtain ⟨one, hone, hrest⟩ := Option.bind_eq_some_iff.mp h
    have hstep : Completes (ref.insert row) t () (ref.put t one) :=
      completes_execute (by rw [hone])
    have hall : (ref.get (ref.put t one)).insertAll? rest = some table := by
      rw [ref.get_put]
      exact hrest
    have hrows := ih hall
    rw [ref.put_put] at hrows
    exact completes_then hstep hrows

end Rows

lemma runs_rebuildFts {rows : List ObjectRow} {a : Unit} (h : Runs (rebuildFts cas rows) t a u) :
    u = { t with ftsIndex := t.ftsIndex ++ rebuilt cas rows } := by
  induction rows generalizing t with
  | nil =>
    obtain ⟨_, rfl⟩ := runs_pure h
    simp [rebuilt]
  | cons row rest ih =>
    rw [rebuildFts] at h
    cases hbody : ftsBody cas row.cid with
    | none =>
      simp only [hbody] at h
      simpa [rebuilt, hbody] using ih h
    | some body =>
      simp only [hbody] at h
      simpa [rebuilt, hbody] using ih (ftsInsert_ok h)

lemma completes_rebuildFts (cas : OrderedMap String String) (rows : List ObjectRow) (t : Tables) :
    Completes (rebuildFts cas rows) t () { t with ftsIndex := t.ftsIndex ++ rebuilt cas rows } := by
  induction rows generalizing t with
  | nil =>
    have hsame : { t with ftsIndex := t.ftsIndex ++ rebuilt cas [] } = t := by simp [rebuilt]
    rw [hsame]
    exact completes_pure () t
  | cons row rest ih =>
    rw [rebuildFts]
    cases hbody : ftsBody cas row.cid with
    | none => simpa [rebuilt, hbody] using ih t
    | some body =>
      have hinsert : Completes (ftsInsert row.ns row.id row.rev body) t ()
          { t with ftsIndex := t.ftsIndex ++ [⟨row.ns, row.id, row.rev, body⟩] } :=
        completes_execute rfl
      have hrest := ih { t with ftsIndex := t.ftsIndex ++ [⟨row.ns, row.id, row.rev, body⟩] }
      have hboth := completes_then hinsert hrest
      simpa [rebuilt, hbody] using hboth

lemma merge?_eq_some {src : Tables} : merge? src t cas = some u ↔
    ∃ changelog objects coldObjects, t.changelog.insertAll? (sortedLog src) = some changelog ∧
      t.objects.insertAll? src.objects.rows = some objects ∧
      t.coldObjects.insertAll? src.coldObjects.rows = some coldObjects ∧
      u = ⟨objects, coldObjects, changelog, t.ftsIndex ++ rebuilt cas src.objects.rows⟩ := by
  constructor
  · intro h
    obtain ⟨changelog, hlog, h⟩ := Option.bind_eq_some_iff.mp h
    obtain ⟨objects, hobjects, h⟩ := Option.bind_eq_some_iff.mp h
    obtain ⟨coldObjects, hcold, h⟩ := Option.bind_eq_some_iff.mp h
    cases h
    exact ⟨changelog, objects, coldObjects, hlog, hobjects, hcold, rfl⟩
  · rintro ⟨changelog, objects, coldObjects, hlog, hobjects, hcold, rfl⟩
    rw [merge?, hlog, hobjects, hcold]
    rfl

lemma runs_copyTables {src : Tables} {a : Unit} (h : Runs (copyTables src cas) t a u) :
    merge? src t cas = some u := by
  have hbegin := runs_control_bind h
  obtain ⟨_, t1, hlog, h1⟩ := runs_bind hbegin
  obtain ⟨log, hlogRows, rfl⟩ := runs_insertRows changelogRef hlog
  obtain ⟨_, t2, hobjects, h2⟩ := runs_bind h1
  obtain ⟨objects, hobjectRows, rfl⟩ := runs_insertRows objectsRef hobjects
  obtain ⟨_, t3, hcold, h3⟩ := runs_bind h2
  obtain ⟨cold, hcoldRows, rfl⟩ := runs_insertRows coldRef hcold
  obtain ⟨_, t4, hfts, hcommit⟩ := runs_bind h3
  have hrebuilt := runs_rebuildFts hfts
  have hend := runs_execute hcommit
  cases hend
  exact merge?_eq_some.mpr ⟨log, objects, cold, hlogRows, hobjectRows, hcoldRows, hrebuilt⟩

lemma completes_copyTables {src : Tables} (h : merge? src t cas = some u) :
    Completes (copyTables src cas) t () u := by
  obtain ⟨log, objects, cold, hlog, hobjects, hcold, rfl⟩ := merge?_eq_some.mp h
  have hcontrol : ∀ s : Tables, Completes control s () s := fun s => completes_execute rfl
  have h1 : Completes (insertRows changelogRef (sortedLog src)) t () { t with changelog := log } :=
    completes_insertRows changelogRef hlog
  have h2 : Completes (insertRows objectsRef src.objects.rows) { t with changelog := log } ()
      { t with changelog := log, objects } := completes_insertRows objectsRef hobjects
  have h3 : Completes (insertRows coldRef src.coldObjects.rows) { t with changelog := log, objects } ()
      { t with changelog := log, objects, coldObjects := cold } := completes_insertRows coldRef hcold
  have h4 := completes_rebuildFts cas src.objects.rows
    { t with changelog := log, objects, coldObjects := cold }
  have h5 := completes_then h4 (hcontrol _)
  exact completes_then (hcontrol t) (completes_then h1 (completes_then h2 (completes_then h3 h5)))

end Copy

section Faithful

variable {v w copy : VaultDB} {u : Tables} {cid : String}

/-- The blob as it is read: malformed cids address nothing. -/
def blobText (cas : OrderedMap String String) (cid : String) : Option String :=
  if wellFormedCid cid then cas.get? cid else none

/-- The cids that the rows and the links name. -/
def Referenced (t : Tables) (cid : String) : Prop :=
  (∃ r, Present t r ∧ r.cid = cid) ∨ ∃ c ∈ t.changelog.rows, c.cid = cid

/-- The copy is the vault: its rows, the blobs they name, and the result reported. -/
structure Copied (v copy : VaultDB) (r : RoundtripResult) : Prop where
  changelog : copy.tables.changelog.rows.Perm v.tables.changelog.rows
  objects : copy.tables.objects.rows.Perm v.tables.objects.rows
  cold : copy.tables.coldObjects.rows.Perm v.tables.coldObjects.rows
  fts : copy.tables.ftsIndex.Perm v.tables.ftsIndex
  blobs : ∀ cid, Referenced v.tables cid → ∃ text, blobText v.cas cid = some text ∧
    blobText copy.cas cid = some text
  entries : r.entries = (verify v).entries
  headHash : r.headHash = (verify v).headHash

/-- The rows of both vaults go together, and with the blobs of both they pass the proof walk. -/
def Mergeable (v w : VaultDB) : Prop :=
  ∃ u, merge? v.tables w.tables (casCopyAll v.cas w.cas) = some u ∧
    Verified ⟨u, casCopyAll v.cas w.cas⟩

/-- The target has no rows, and the source lacks nothing that its rows name or its search finds. -/
structure Clean (v w : VaultDB) : Prop where
  changelog : w.tables.changelog.rows = []
  objects : w.tables.objects.rows = []
  cold : w.tables.coldObjects.rows = []
  fts : (w.tables.ftsIndex ++ rebuilt v.cas v.tables.objects.rows).Perm v.tables.ftsIndex
  blobs : ∀ cid, Referenced v.tables cid → casHas v.cas cid = true

lemma casHas_iff {cas : OrderedMap String String} :
    casHas cas cid = true ↔ ∃ text, blobText cas cid = some text := by
  rw [casHas, blobText, Bool.and_eq_true, OrderedMap.has_iff]
  cases wellFormedCid cid with
  | true => simp
  | false => simp

lemma blobText_casCopyAll (cas target : OrderedMap String String) :
    blobText (casCopyAll cas target) cid = (blobText cas cid).or (blobText target cid) := by
  rw [blobText, blobText, blobText, get?_casCopyAll]
  cases wellFormedCid cid with
  | true => rfl
  | false => rfl

lemma casGet_of_blobText {cas cas' : OrderedMap String String} (h : blobText cas cid = blobText cas' cid) :
    casGet cas cid = casGet cas' cid := by
  rw [blobText, blobText] at h
  rw [casGet, casGet, casPath]
  cases hwell : wellFormedCid cid with
  | true =>
    rw [hwell, if_pos rfl, if_pos rfl] at h
    simp only [if_pos, pure_bind, h]
  | false => rfl

/-- Where the source has every blob, the target's own make no difference. -/
lemma rebuilt_casCopyAll {cas target : OrderedMap String String} {rows : List ObjectRow}
    (h : ∀ r ∈ rows, casHas cas r.cid = true) :
    rebuilt (casCopyAll cas target) rows = rebuilt cas rows := by
  apply List.filterMap_congr
  intro r hr
  obtain ⟨text, htext⟩ := casHas_iff.mp (h r hr)
  have hsame : blobText (casCopyAll cas target) r.cid = blobText cas r.cid := by
    rw [blobText_casCopyAll, htext]
    rfl
  rw [ftsBody, ftsBody, casGet_of_blobText hsame]

lemma nil_of_append_perm {α : Type} {xs ys zs : List α} (h : (xs ++ ys).Perm zs)
    (hlen : ys.length = zs.length) : xs = [] := by
  have hh := h.length_eq
  rw [List.length_append] at hh
  exact List.eq_nil_of_length_eq_zero (by omega)

/-- What a call that returns has done. -/
lemma roundtrip_ok {srcRoot : List String} {targetDir : Value} {faults : CopyFaults}
    {r : RoundtripResult} (h : roundtrip v srcRoot targetDir w faults = (.ok r, copy)) :
    merge? v.tables w.tables (casCopyAll v.cas w.cas) = some copy.tables ∧
      copy.cas = casCopyAll v.cas w.cas ∧ r.ok = (verify copy).ok ∧
      r.entries = (verify copy).entries ∧ r.headHash = (verify copy).headHash := by
  unfold roundtrip at h
  cases hdir : requireTarget srcRoot targetDir with
  | error e => rw [hdir] at h; cases h
  | ok root =>
    rw [hdir] at h
    cases hblobs : faults.blobs with
    | some fault => rw [hblobs] at h; cases h
    | none =>
      rw [hblobs] at h
      dsimp only at h
      rcases transaction_cases (copyTables v.tables (casCopyAll v.cas w.cas)) w.tables faults.sql with
        ⟨e, he⟩ | ⟨a, u, hu, hruns⟩
      · rw [he] at h
        cases h
      · rw [hu] at h
        cases h
        exact ⟨runs_copyTables hruns, rfl, rfl, rfl, rfl⟩

lemma verify_eq_of_sortedLog {v v' : VaultDB} (h : sortedLog v'.tables = sortedLog v.tables) :
    (verify v').entries = (verify v).entries ∧ (verify v').headHash = (verify v).headHash := by
  constructor
  · exact congrArg List.length h
  · exact congrArg (fun rows => (walk rows 0 genesisHash genesisHash).head) h

lemma copied_of_clean (hmerge : merge? v.tables w.tables (casCopyAll v.cas w.cas) = some copy.tables)
    (hcas : copy.cas = casCopyAll v.cas w.cas) (hclean : Clean v w) {r : RoundtripResult}
    (hentries : r.entries = (verify copy).entries) (hhead : r.headHash = (verify copy).headHash) :
    Copied v copy r := by
  obtain ⟨log, objects, cold, hlog, hobjects, hcold, hcopy⟩ := merge?_eq_some.mp hmerge
  have hlogRows := (Table.insertAll?_eq_some.mp hlog).2
  have hobjectRows := (Table.insertAll?_eq_some.mp hobjects).2
  have hcoldRows := (Table.insertAll?_eq_some.mp hcold).2
  rw [hclean.changelog, List.nil_append] at hlogRows
  rw [hclean.objects, List.nil_append] at hobjectRows
  rw [hclean.cold, List.nil_append] at hcoldRows
  have hsorted : sortedLog copy.tables = sortedLog v.tables := by
    rw [hcopy, sortedLog, hlogRows]
    exact List.Pairwise.insertionSort_eq (List.pairwise_insertionSort _ _)
  obtain ⟨hsameEntries, hsameHead⟩ := verify_eq_of_sortedLog hsorted
  have hblobs : ∀ r ∈ v.tables.objects.rows, casHas v.cas r.cid = true :=
    fun r hr => hclean.blobs r.cid (Or.inl ⟨r, Or.inl hr, rfl⟩)
  refine ⟨?_, ?_, ?_, ?_, fun cid hcid => ?_, hentries.trans hsameEntries, hhead.trans hsameHead⟩
  · rw [hcopy, hlogRows]
    exact List.perm_insertionSort _ _
  · rw [hcopy, hobjectRows]
  · rw [hcopy, hcoldRows]
  · rw [hcopy]
    dsimp only
    rw [rebuilt_casCopyAll hblobs]
    exact hclean.fts
  · obtain ⟨text, htext⟩ := casHas_iff.mp (hclean.blobs cid hcid)
    refine ⟨text, htext, ?_⟩
    rw [hcas, blobText_casCopyAll, htext]
    rfl

lemma clean_of_copied (hmerge : merge? v.tables w.tables (casCopyAll v.cas w.cas) = some copy.tables)
    {r : RoundtripResult} (h : Copied v copy r) : Clean v w := by
  obtain ⟨log, objects, cold, hlog, hobjects, hcold, hcopy⟩ := merge?_eq_some.mp hmerge
  have hlogRows := (Table.insertAll?_eq_some.mp hlog).2
  have hobjectRows := (Table.insertAll?_eq_some.mp hobjects).2
  have hcoldRows := (Table.insertAll?_eq_some.mp hcold).2
  have hblobs : ∀ cid, Referenced v.tables cid → casHas v.cas cid = true := by
    intro cid hcid
    obtain ⟨text, htext, _⟩ := h.blobs cid hcid
    exact casHas_iff.mpr ⟨text, htext⟩
  have hlogPerm := h.changelog
  have hobjectsPerm := h.objects
  have hcoldPerm := h.cold
  have hfts := h.fts
  rw [hcopy] at hlogPerm hobjectsPerm hcoldPerm hfts
  dsimp only at hlogPerm hobjectsPerm hcoldPerm hfts
  rw [hlogRows] at hlogPerm
  rw [hobjectRows] at hobjectsPerm
  rw [hcoldRows] at hcoldPerm
  rw [rebuilt_casCopyAll fun r hr => hblobs r.cid (Or.inl ⟨r, Or.inl hr, rfl⟩)] at hfts
  exact ⟨nil_of_append_perm hlogPerm (List.perm_insertionSort _ _).length_eq,
    nil_of_append_perm hobjectsPerm rfl, nil_of_append_perm hcoldPerm rfl, hfts, hblobs⟩

/-- Whatever a call says is ok is a copy of the vault. -/
def Faithfully (v w : VaultDB) : Prop :=
  ∀ srcRoot targetDir faults r copy, roundtrip v srcRoot targetDir w faults = (.ok r, copy) →
    r.ok = true → Copied v copy r

/-- A call that nothing makes fail shows what the target had. -/
lemma Faithfully.clean (h : Faithfully v w) (hm : Mergeable v w) : Clean v w := by
  obtain ⟨u, hmerge, hverified⟩ := hm
  have hrun : roundtrip v ["vault"] (.string (ofText "/copy")) w ⟨none, none⟩ =
      (.ok ⟨(verify ⟨u, casCopyAll v.cas w.cas⟩).ok, (verify ⟨u, casCopyAll v.cas w.cas⟩).entries,
        (verify ⟨u, casCopyAll v.cas w.cas⟩).headHash, (verify ⟨u, casCopyAll v.cas w.cas⟩).detail,
        v.cas.entries.countP fun blob => wellFormedCid blob.1⟩, ⟨u, casCopyAll v.cas w.cas⟩) := by
    have hdir : requireTarget ["vault"] (.string (ofText "/copy")) = .ok ["copy"] := by decide
    rw [roundtrip, hdir]
    dsimp only
    rw [transaction_completes (completes_copyTables hmerge)]
  have hcopied := h _ _ _ _ _ hrun ((verify_ok_iff _).mpr hverified)
  exact clean_of_copied hmerge hcopied

/-- An ok roundtrip is a faithful one exactly where the target was clean, or nothing could be ok. -/
theorem roundtrip_faithful_iff (v w : VaultDB) : Faithfully v w ↔ (Mergeable v w → Clean v w) := by
  constructor
  · exact Faithfully.clean
  · intro h srcRoot targetDir faults r copy hrun hok
    obtain ⟨hmerge, hcas, hrok, hentries, hhead⟩ := roundtrip_ok hrun
    have hverified : Verified ⟨copy.tables, casCopyAll v.cas w.cas⟩ := by
      rw [← hcas]
      exact (verify_ok_iff copy).mp (hrok ▸ hok)
    exact copied_of_clean hmerge hcas (h ⟨_, hmerge, hverified⟩) hentries hhead

lemma mergeable_empty (hw : Verified w) : Mergeable VaultDB.empty w := by
  refine ⟨w.tables, merge?_eq_some.mpr ⟨_, _, _, rfl, rfl, rfl, ?_⟩, hw⟩
  ext : 1
  · rfl
  · rfl
  · rfl
  · exact (List.append_nil _).symm

/-- A vault without rows, copied over one with rows. -/
theorem roundtrip_into_filled : ¬ ∀ v w : VaultDB, Faithfully v w := by
  intro h
  obtain ⟨s, hs, hash, hrows⟩ := reachable_firstLink
  have hmergeable := mergeable_empty (reachable_consistent hs).verified
  have hnil := ((h VaultDB.empty s.vault).clean hmergeable).changelog
  rw [hrows] at hnil
  cases hnil

end Faithful

end VivimOmega.Vault

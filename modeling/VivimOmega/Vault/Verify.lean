import VivimOmega.Library.HashChain
import VivimOmega.Vault.Compaction

/-! The proof walk: the chain, the links to stored revisions, the blobs of stored revisions. -/

namespace VivimOmega.Vault

open Library Library.Json

structure VerifyResult where
  ok : Bool
  headHash : String
  entries : ℕ
  corruptAt : Option ℤ
  detail : Option String
  deriving DecidableEq

/-- The changelog `ORDER BY seq ASC`. -/
def sortedLog (t : Tables) : List ChangelogRow :=
  t.changelog.rows.insertionSort fun r s => r.seq ≤ s.seq

structure Walk where
  head : String
  corruptAt : Option ℤ
  detail : Option String
  deriving DecidableEq

/-- Walks the chain from row `i`, and stops at the first row that is wrong. -/
def walk : List ChangelogRow → ℕ → String → String → Walk
  | [], _, _, head => ⟨head, none, none⟩
  | row :: rest, i, prev, head =>
    let computed := entryHash row.toLinkFields prev
    if row.seq ≠ i + 1 then
      ⟨head, some row.seq, some ("changelog seq gap before " ++ toString row.seq ++ " (expected " ++
        toString (i + 1) ++ ") — entries deleted")⟩
    else if row.prevHash ≠ prev then
      ⟨head, some row.seq, some ("prev_hash mismatch at seq " ++ toString row.seq ++ ": stored " ++
        row.prevHash ++ " != chain " ++ prev)⟩
    else if row.entryHash ≠ computed then
      ⟨head, some row.seq, some ("entry_hash mismatch at seq " ++ toString row.seq ++ ": stored " ++
        row.entryHash ++ " != recomputed " ++ computed)⟩
    else walk rest (i + 1) computed computed

def isStored (t : Tables) (key : RevKey) : Bool :=
  (t.objects.find? key).isSome || (t.coldObjects.find? key).isSome

/-- The first link, by seq, that no stored revision resolves. -/
def missingLink (t : Tables) : Option ChangelogRow :=
  (sortedLog t).find? fun c => !isStored t c.key

def storedCids (t : Tables) : List String :=
  ((t.objects.rows.map fun r => r.cid) ++ t.coldObjects.rows.map fun r => r.cid).dedup.insertionSort
    (· ≤ ·)

def carrier (t : Tables) (cid : String) : Option RevKey :=
  match t.objects.rows.find? fun r => r.cid = cid with
  | some row => some row.key
  | none => (t.coldObjects.rows.find? fun r => r.cid = cid).map ColdRow.key

structure Scan where
  missingCas : ℕ
  corruptAt : Option ℤ
  detail : Option String

/-- A blob that is not there, reported at the first link of a revision that carries it. -/
def missed (t : Tables) (cid : String) (scan : Scan) : Scan :=
  let counted := { scan with missingCas := scan.missingCas + 1 }
  match scan.corruptAt, carrier t cid with
  | none, some key =>
    match (sortedLog t).find? fun c => c.key = key with
    | some link => { counted with
        corruptAt := some link.seq
        detail := some ("CAS blob " ++ cid ++ " for " ++ key.1 ++ "/" ++ key.2.1 ++ "@" ++
          toString key.2.2 ++ " (changelog seq " ++ toString link.seq ++ ") is missing") }
    | none => counted
  | _, _ => counted

def scanCids (v : VaultDB) : List String → Scan → Scan
  | [], scan => scan
  | cid :: rest, scan =>
    if casHas v.cas cid then scanCids v rest scan else scanCids v rest (missed v.tables cid scan)

/-- The links are probed only when the chain is whole. -/
def probeLinks (t : Tables) (walked : Walk) : Scan :=
  match walked.corruptAt, missingLink t with
  | none, some missing => ⟨0, some missing.seq, some ("changelog seq " ++ toString missing.seq ++
      " (" ++ missing.ns ++ "/" ++ missing.id ++ "@" ++ toString missing.rev ++
      ") has no stored revision — history rewritten")⟩
  | corruptAt, _ => ⟨0, corruptAt, walked.detail⟩

def verify (v : VaultDB) : VerifyResult :=
  let rows := sortedLog v.tables
  let walked := walk rows 0 genesisHash genesisHash
  let scanned := scanCids v (storedCids v.tables) (probeLinks v.tables walked)
  let detail := if scanned.missingCas > 0 ∧ scanned.detail = none then
      some (toString scanned.missingCas ++ " stored revision(s) have missing CAS blobs")
    else scanned.detail
  ⟨scanned.corruptAt = none ∧ scanned.missingCas = 0, walked.head, rows.length, scanned.corruptAt, detail⟩

/-- The changelog as a hash chain. -/
def chain : HashChain ChangelogRow LinkFields String where
  fields := ChangelogRow.toLinkFields
  stored := ChangelogRow.entryHash
  back := ChangelogRow.prevHash
  hash := entryHash
  ext := by
    rintro ⟨r, rh, rp⟩ ⟨s, sh, sp⟩ rfl rfl rfl
    rfl

section Spec

/-- The seqs count up from the one after `i`. -/
def Numbered (i : ℕ) (rows : List ChangelogRow) : Prop :=
  rows.map (fun r => r.seq) = (List.range' (i + 1) rows.length).map Nat.cast

lemma numbered_cons {i : ℕ} {row : ChangelogRow} {rest : List ChangelogRow} :
    Numbered i (row :: rest) ↔ row.seq = i + 1 ∧ Numbered (i + 1) rest := by
  unfold Numbered
  rw [List.map_cons, List.length_cons, List.range'_succ, List.map_cons, List.cons.injEq]
  push_cast
  rfl

/-- A row that stands in the chain at its place. -/
def Fits (row : ChangelogRow) (i : ℕ) (prev : String) : Prop :=
  row.seq = i + 1 ∧ row.prevHash = prev ∧ row.entryHash = entryHash row.toLinkFields prev

lemma walk_fits {row : ChangelogRow} {i : ℕ} {prev : String} (rest : List ChangelogRow)
    (head : String) (h : Fits row i prev) :
    walk (row :: rest) i prev head = walk rest (i + 1) row.entryHash row.entryHash := by
  obtain ⟨hseq, hprev, hentry⟩ := h
  rw [walk]
  simp only [hseq, hprev, ← hentry, ne_eq, not_true_eq_false, if_false]

lemma walk_unfit {row : ChangelogRow} {i : ℕ} {prev : String} (rest : List ChangelogRow)
    (head : String) (h : ¬ Fits row i prev) :
    (walk (row :: rest) i prev head).corruptAt = some row.seq := by
  rw [walk]
  by_cases hseq : row.seq = i + 1
  · by_cases hprev : row.prevHash = prev
    · have hentry : row.entryHash ≠ entryHash row.toLinkFields prev := fun he => h ⟨hseq, hprev, he⟩
      simp only [hseq, hprev, hentry, ne_eq, not_true_eq_false, not_false_eq_true, if_true, if_false]
    · simp only [hseq, hprev, ne_eq, not_true_eq_false, not_false_eq_true, if_true, if_false]
  · simp only [hseq, ne_eq, not_false_eq_true, if_true]

lemma chained_cons {row : ChangelogRow} {rest : List ChangelogRow} {i : ℕ} {prev : String} :
    Numbered i (row :: rest) ∧ chain.Chained prev (row :: rest) ↔
      Fits row i prev ∧ Numbered (i + 1) rest ∧ chain.Chained row.entryHash rest := by
  rw [numbered_cons, HashChain.Chained, Fits]
  constructor
  · rintro ⟨⟨hseq, hn⟩, hprev, hentry, hc⟩
    exact ⟨⟨hseq, hprev, hentry⟩, hn, hc⟩
  · rintro ⟨⟨hseq, hprev, hentry⟩, hn, hc⟩
    exact ⟨⟨hseq, hn⟩, hprev, hentry, hc⟩

/-- The walk finds nothing wrong exactly in a numbered chain, and ends at its head. -/
lemma walk_spec (rows : List ChangelogRow) (i : ℕ) (prev : String) :
    ((walk rows i prev prev).corruptAt = none ↔ Numbered i rows ∧ chain.Chained prev rows) ∧
      ((walk rows i prev prev).corruptAt = none →
        (walk rows i prev prev).head = chain.head prev rows) := by
  induction rows generalizing i prev with
  | nil => exact ⟨by simp [walk, Numbered, HashChain.Chained], fun _ => rfl⟩
  | cons row rest ih =>
    rw [chained_cons]
    by_cases hfits : Fits row i prev
    · rw [walk_fits rest prev hfits]
      obtain ⟨hiff, hhead⟩ := ih (i + 1) row.entryHash
      refine ⟨?_, hhead⟩
      rw [hiff]
      exact ⟨fun h => ⟨hfits, h⟩, fun h => h.2⟩
    · rw [walk_unfit rest prev hfits]
      refine ⟨?_, fun h => absurd h (by simp)⟩
      constructor
      · intro h
        cases h
      · exact fun h => absurd h.1 hfits

lemma mem_storedCids {t : Tables} {cid : String} :
    cid ∈ storedCids t ↔
      (∃ r ∈ t.objects.rows, r.cid = cid) ∨ ∃ r ∈ t.coldObjects.rows, r.cid = cid := by
  rw [storedCids, List.mem_insertionSort, List.mem_dedup, List.mem_append, List.mem_map, List.mem_map]

@[simp] lemma missingCas_missed (t : Tables) (cid : String) (scan : Scan) :
    (missed t cid scan).missingCas = scan.missingCas + 1 := by
  unfold missed
  dsimp only
  split
  · split
    · rfl
    · rfl
  · rfl

/-- The scan counts nothing exactly when every blob is there, and then changes nothing. -/
lemma scanCids_spec (v : VaultDB) (cids : List String) (scan : Scan) :
    scan.missingCas ≤ (scanCids v cids scan).missingCas ∧
      ((scanCids v cids scan).missingCas = scan.missingCas ↔ ∀ cid ∈ cids, casHas v.cas cid = true) ∧
      ((∀ cid ∈ cids, casHas v.cas cid = true) → scanCids v cids scan = scan) := by
  induction cids generalizing scan with
  | nil => exact ⟨le_refl _, by simp [scanCids], fun _ => rfl⟩
  | cons cid rest ih =>
    rw [scanCids, List.forall_mem_cons]
    cases hhas : casHas v.cas cid with
    | true =>
      rw [if_pos rfl]
      obtain ⟨hle, hiff, hsame⟩ := ih scan
      refine ⟨hle, ?_, fun h => hsame h.2⟩
      rw [hiff]
      exact ⟨fun h => ⟨rfl, h⟩, fun h => h.2⟩
    | false =>
      rw [if_neg (by decide)]
      obtain ⟨hle, _, _⟩ := ih (missed v.tables cid scan)
      rw [missingCas_missed] at hle
      refine ⟨by omega, ⟨fun h => ?_, fun h => ?_⟩, fun h => ?_⟩
      · omega
      · cases h.1
      · cases h.1

/-- Every link resolves to a stored revision. -/
def Resolved (t : Tables) : Prop := ∀ c ∈ t.changelog.rows, isStored t c.key = true

lemma mem_sortedLog {t : Tables} {c : ChangelogRow} : c ∈ sortedLog t ↔ c ∈ t.changelog.rows :=
  List.mem_insertionSort _

lemma missingLink_eq_none {t : Tables} : missingLink t = none ↔ Resolved t := by
  rw [missingLink, List.find?_eq_none]
  constructor
  · intro h c hc
    simpa using h c (mem_sortedLog.mpr hc)
  · intro h c hc
    simpa using h c (mem_sortedLog.mp hc)

/-- The checks that a verdict of ok stands for. -/
structure Verified (v : VaultDB) : Prop where
  numbered : Numbered 0 (sortedLog v.tables)
  chained : chain.Chained genesisHash (sortedLog v.tables)
  resolved : Resolved v.tables
  blobs : ∀ cid ∈ storedCids v.tables, casHas v.cas cid = true

lemma probeLinks_spec (t : Tables) (walked : Walk) :
    (probeLinks t walked).missingCas = 0 ∧
      ((probeLinks t walked).corruptAt = none ↔ walked.corruptAt = none ∧ Resolved t) := by
  rw [← missingLink_eq_none]
  unfold probeLinks
  cases hwalk : walked.corruptAt with
  | none =>
    cases hlink : missingLink t with
    | none => exact ⟨rfl, by simp⟩
    | some missing => exact ⟨rfl, by simp⟩
  | some seq => exact ⟨rfl, by simp⟩

lemma verify_ok_iff (v : VaultDB) : (verify v).ok = true ↔ Verified v := by
  obtain ⟨hwalk, _⟩ := walk_spec (sortedLog v.tables) 0 genesisHash
  obtain ⟨hnone, hlinks⟩ := probeLinks_spec v.tables (walk (sortedLog v.tables) 0 genesisHash genesisHash)
  obtain ⟨_, hcount, hsame⟩ := scanCids_spec v (storedCids v.tables)
    (probeLinks v.tables (walk (sortedLog v.tables) 0 genesisHash genesisHash))
  rw [hnone] at hcount
  have hok : (verify v).ok = true ↔
      (scanCids v (storedCids v.tables) (probeLinks v.tables
        (walk (sortedLog v.tables) 0 genesisHash genesisHash))).corruptAt = none ∧
      (scanCids v (storedCids v.tables) (probeLinks v.tables
        (walk (sortedLog v.tables) 0 genesisHash genesisHash))).missingCas = 0 := decide_eq_true_iff
  rw [hok, hcount]
  constructor
  · rintro ⟨hcorrupt, hblobs⟩
    rw [hsame hblobs, hlinks, hwalk] at hcorrupt
    obtain ⟨⟨hnumbered, hchained⟩, hresolved⟩ := hcorrupt
    exact ⟨hnumbered, hchained, hresolved, hblobs⟩
  · rintro ⟨hnumbered, hchained, hresolved, hblobs⟩
    rw [hsame hblobs, hlinks, hwalk]
    exact ⟨⟨⟨hnumbered, hchained⟩, hresolved⟩, hblobs⟩

lemma headHash_of_ok {v : VaultDB} (h : (verify v).ok = true) :
    (verify v).headHash = chain.head genesisHash (sortedLog v.tables) := by
  have hv := (verify_ok_iff v).mp h
  obtain ⟨hiff, hhead⟩ := walk_spec (sortedLog v.tables) 0 genesisHash
  exact hhead (hiff.mpr ⟨hv.numbered, hv.chained⟩)

end Spec

end VivimOmega.Vault

import VivimOmega.Library.Counting
import VivimOmega.Library.Transition
import VivimOmega.Vault.Verify

/-! The store over whole runs: writes in any order, failing or not, keep the tables in step. -/

namespace VivimOmega.Vault

open Library Library.Json

inductive Write
  | append (input : AppendInput)
  | compact (ns : Name) (keep : {n : ℤ // 1 ≤ n})

inductive WriteResult
  | appended (r : AppendResult)
  | compacted (r : CompactResult)

def runWrite (v : VaultDB) (faults : Faults) (now : ℕ) :
    Write → Except String WriteResult × VaultDB
  | .append input =>
    let (result, v') := appendObject v input faults
    (result.map .appended, v')
  | .compact ns keep =>
    let (result, v') := compact v ns keep now faults.sql
    (result.map .compacted, v')

structure Store where
  vault : VaultDB
  queue : List Write

inductive Event
  | append (payload causationId : KeyedValue)
  | compact (payload : KeyedValue)
  | turn (faults : Faults) (now : ℕ)

/-- `enqueueWrite`: writes take their turns in order, whether the one before failed or not. -/
def Store.step (s : Store) : Event → Option Store
  | .append payload causationId =>
    match appendOp payload causationId with
    | .ok input => some { s with queue := s.queue ++ [.append input] }
    | .error _ => some s
  | .compact payload =>
    match compactOp payload with
    | .ok (ns, keep) => some { s with queue := s.queue ++ [.compact ns keep] }
    | .error _ => some s
  | .turn faults now =>
    match s.queue with
    | [] => none
    | write :: rest => some ⟨(runWrite s.vault faults now write).2, rest⟩

/-- The runs of an opened vault that starts empty. -/
def store : System Store Event where
  init s := s = ⟨VaultDB.empty, []⟩
  step := Store.step

section Invariant

variable {v : VaultDB} {t u : Tables} {ns id : String}

/-- A revision stands in one of the two tables with this cid. -/
def Stored (t : Tables) (key : RevKey) (cid : String) : Prop :=
  (∃ r ∈ t.objects.rows, r.key = key ∧ r.cid = cid) ∨
    ∃ r ∈ t.coldObjects.rows, r.key = key ∧ r.cid = cid

def revs (t : Tables) (ns id : String) : List ℤ := (history t ns id).map fun r => r.rev

/-- What holds of the tables and the blobs between the writes. -/
structure Consistent (v : VaultDB) : Prop where
  seqs : Counting (v.tables.changelog.rows.map fun r => r.seq)
  counted : ∀ ns id, Counting (revs v.tables ns id)
  stored : ∀ key cid, Stored v.tables key cid ↔
    ∃ c ∈ v.tables.changelog.rows, c.key = key ∧ c.cid = cid
  disjoint : ∀ r ∈ v.tables.objects.rows, ∀ c ∈ v.tables.coldObjects.rows, r.key ≠ c.key
  newest : ∀ ns id, revs v.tables ns id ≠ [] →
    ∃ r ∈ v.tables.objects.rows, r.key = (ns, id, ((revs v.tables ns id).length : ℤ))
  fts : v.tables.ftsIndex.map FtsRow.key = v.tables.objects.rows.map ObjectRow.key
  chained : chain.Chained genesisHash v.tables.changelog.rows
  blobs : ∀ c ∈ v.tables.changelog.rows, casHas v.cas c.cid = true
  named : ∀ c ∈ v.tables.changelog.rows, IsName c.causationId ∧ IsName c.ns ∧ IsName c.id

lemma nextSeq_eq (h : Counting (t.changelog.rows.map fun r => r.seq)) :
    nextSeq t = t.changelog.rows.length + 1 := by
  rw [nextSeq, h.max?, List.length_map]

lemma nextRev_eq (h : Counting (revs t ns id)) : nextRev t ns id = (revs t ns id).length + 1 := by
  rw [nextRev]
  exact congrArg (· + 1) h.max?

lemma pairwise_seq (h : Counting (t.changelog.rows.map fun r => r.seq)) :
    t.changelog.rows.Pairwise fun r s => r.seq < s.seq :=
  List.pairwise_map.mp h.pairwise

lemma sortedLog_eq (h : Counting (t.changelog.rows.map fun r => r.seq)) :
    sortedLog t = t.changelog.rows :=
  List.Pairwise.insertionSort_eq ((pairwise_seq h).imp le_of_lt)

/-- The stored head is the hash of the last row. -/
lemma chainHead_eq (h : Counting (t.changelog.rows.map fun r => r.seq)) :
    chainHead t = chain.head genesisHash t.changelog.rows := by
  have hsorted := pairwise_seq h
  rw [chainHead]
  cases hrows : t.changelog.rows using List.reverseRecOn with
  | nil => rfl
  | append_singleton rows last =>
    rw [hrows] at hsorted
    have hlast : lastBy (fun r => r.seq) (rows ++ [last]) = some last := by
      apply lastBy_concat
      intro r hr
      exact (List.pairwise_append.mp hsorted).2.2 r hr last (List.mem_singleton_self last)
    rw [hlast, HashChain.head_append]
    rfl

lemma Consistent.empty : Consistent VaultDB.empty := by
  refine ⟨rfl, fun _ _ => rfl, fun key cid => ?_, ?_, ?_, rfl, trivial, ?_, ?_⟩
  · constructor
    · rintro (⟨r, hr, _⟩ | ⟨r, hr, _⟩)
      · cases hr
      · cases hr
    · rintro ⟨c, hc, _⟩
      cases hc
  · intro r hr
    cases hr
  · intro ns id h
    exact absurd rfl h
  · intro c hc
    cases hc
  · intro c hc
    cases hc

end Invariant

section Append

variable {v : VaultDB} {u : Tables} {cas : OrderedMap String String} {input : AppendInput}
  {cid : String} {fault : Option String}

lemma casHas_casPut (h : casPut v.cas input.data.1 fault = .ok (cid, cas)) :
    casHas cas cid = true ∧ ∀ c, casHas v.cas c = true → casHas cas c = true := by
  obtain ⟨text, _, _, hwell, ⟨hhas, rfl⟩ | ⟨_, rfl⟩⟩ := casPut_ok h
  · exact ⟨by rw [casHas, hwell, hhas]; rfl, fun c hc => hc⟩
  · refine ⟨?_, fun c hc => ?_⟩
    · rw [casHas, hwell, OrderedMap.has_set]
      simp
    · unfold casHas at *
      rw [Bool.and_eq_true] at *
      refine ⟨hc.1, ?_⟩
      rw [OrderedMap.has_set, hc.2, Bool.or_true]

lemma history_append {t : Tables} {row : ChangelogRow}
    (h : u.changelog.rows = t.changelog.rows ++ [row]) (ns id : String) :
    history u ns id = history t ns id ++ if row.ns = ns ∧ row.id = id then [row] else [] := by
  rw [history, h, List.filter_append, List.filter_singleton]
  simp [history]

lemma revs_append {t : Tables} {row : ChangelogRow}
    (h : u.changelog.rows = t.changelog.rows ++ [row]) (ns id : String) :
    revs u ns id = revs t ns id ++ if row.ns = ns ∧ row.id = id then [row.rev] else [] := by
  rw [revs, history_append h, List.map_append]
  split_ifs
  · rfl
  · rfl

lemma mem_revs {t : Tables} {ns id : String} {c : ChangelogRow} (hc : c ∈ t.changelog.rows)
    (hns : c.ns = ns) (hid : c.id = id) : c.rev ∈ revs t ns id := by
  apply List.mem_map_of_mem
  exact List.mem_filter.mpr ⟨hc, decide_eq_true ⟨hns, hid⟩⟩

/-- The revision allocated next is stored nowhere. -/
lemma Consistent.fresh (hv : Consistent v) (ns id c : String) :
    ¬ Stored v.tables (ns, id, nextRev v.tables ns id) c := by
  rw [hv.stored, nextRev_eq (hv.counted ns id)]
  rintro ⟨row, hrow, hkey, _⟩
  obtain ⟨hns, hrest⟩ := Prod.mk.inj hkey
  obtain ⟨hid, hrev⟩ := Prod.mk.inj hrest
  have hle := ((hv.counted ns id).mem_iff.mp (mem_revs hrow hns hid)).2
  omega

/-- An orphan blob at most. -/
lemma Consistent.blob (hv : Consistent v) (h : casPut v.cas input.data.1 fault = .ok (cid, cas)) :
    Consistent ⟨v.tables, cas⟩ :=
  { hv with blobs := fun c hc => (casHas_casPut h).2 c.cid (hv.blobs c hc) }

lemma Consistent.append (hv : Consistent v) (h : casPut v.cas input.data.1 fault = .ok (cid, cas))
    (ha : Appended input cid v.tables u) : Consistent ⟨u, cas⟩ := by
  obtain ⟨⟨metaText, _, hobjects⟩, hcold, hlog, ⟨body, _, hfts⟩⟩ := ha
  have hseq := nextSeq_eq hv.seqs
  have hrev := nextRev_eq (hv.counted input.ns input.id)
  obtain ⟨hnew, hkept⟩ := casHas_casPut h
  refine ⟨?_, fun ns id => ?_, fun key c => ?_, ?_, fun ns id hne => ?_, ?_, ?_, ?_, ?_⟩
  · dsimp only
    rw [hlog, List.map_append, List.map_singleton]
    have hh := hv.seqs.concat
    rw [List.length_map] at hh
    rw [linkOf, hseq]
    exact hh
  · rw [revs_append hlog]
    split_ifs with hkey
    · obtain ⟨rfl, rfl⟩ := hkey
      have hh := (hv.counted input.ns input.id).concat
      rw [← hrev] at hh
      exact hh
    · rw [List.append_nil]
      exact hv.counted ns id
  · have hold := hv.stored key c
    unfold Stored at *
    dsimp only
    rw [hobjects, hcold, hlog]
    simp only [List.mem_append, List.mem_singleton, or_and_right, exists_or, exists_eq_left]
    rw [← hold, or_right_comm]
    rfl
  · dsimp only
    rw [hobjects, hcold]
    intro r hr c hc he
    rcases List.mem_append.mp hr with hr | hr
    · exact hv.disjoint r hr c hc he
    · obtain rfl := List.mem_singleton.mp hr
      exact hv.fresh input.ns input.id c.cid (Or.inr ⟨c, hc, he.symm, rfl⟩)
  · dsimp only at hne ⊢
    rw [revs_append hlog] at hne ⊢
    rw [hobjects]
    split_ifs at hne ⊢ with hkey
    · obtain ⟨rfl, rfl⟩ := hkey
      refine ⟨_, List.mem_append_right _ (List.mem_singleton_self _), ?_⟩
      rw [ObjectRow.key, hrev, List.length_append, List.length_singleton, Nat.cast_succ]
      rfl
    · rw [List.append_nil] at hne ⊢
      obtain ⟨r, hr, hrkey⟩ := hv.newest ns id hne
      exact ⟨r, List.mem_append_left _ hr, hrkey⟩
  · dsimp only
    rw [hfts, hobjects, List.map_append, List.map_append, hv.fts]
    rfl
  · dsimp only
    rw [hlog, HashChain.chained_append]
    have hhead := chainHead_eq hv.seqs
    refine ⟨hv.chained, hhead, ?_⟩
    rw [← hhead]
    rfl
  · dsimp only
    rw [hlog]
    intro c hc
    rcases List.mem_append.mp hc with hc | hc
    · exact hkept c.cid (hv.blobs c hc)
    · obtain rfl := List.mem_singleton.mp hc
      exact hnew
  · dsimp only
    rw [hlog]
    intro c hc
    rcases List.mem_append.mp hc with hc | hc
    · exact hv.named c hc
    · obtain rfl := List.mem_singleton.mp hc
      exact ⟨input.causationId.2, input.ns.2, input.id.2⟩

end Append

section Compact

variable {v : VaultDB} {u : Tables} {ns : String} {keep now : ℕ} {refs : List String}
  {keys : List RevKey}

/-- Moving rows keeps every revision stored with its cid. -/
lemma Compacted.stored {t : Tables} (h : Compacted ns keep now refs keys t u) (key : RevKey)
    (cid : String) : Stored u key cid ↔ Stored t key cid := by
  unfold Stored
  constructor
  · rintro (⟨r, hr, hrest⟩ | ⟨c, hc, hrest⟩)
    · rw [h.objects] at hr
      exact Or.inl ⟨r, List.mem_of_mem_filter hr, hrest⟩
    · rcases (h.cold c).mp hc with hc | ⟨r, hr, _, rfl⟩
      · exact Or.inr ⟨c, hc, hrest⟩
      · exact Or.inl ⟨r, hr, hrest⟩
  · rintro (⟨r, hr, hrest⟩ | ⟨c, hc, hrest⟩)
    · by_cases hin : r.key ∈ keys
      · exact Or.inr ⟨⟨r, now⟩, (h.cold _).mpr (Or.inr ⟨r, hr, hin, rfl⟩), hrest⟩
      · refine Or.inl ⟨r, ?_, hrest⟩
        rw [h.objects]
        exact List.mem_filter.mpr ⟨hr, decide_eq_true hin⟩
    · exact Or.inr ⟨c, (h.cold c).mpr (Or.inl hc), hrest⟩

lemma Consistent.hot_le (hv : Consistent v) {id : String} {rev : ℤ}
    (h : rev ∈ hotRevs v.tables ns id) : rev ≤ (revs v.tables ns id).length := by
  obtain ⟨r, hr, hkey⟩ := mem_hotRevs.mp h
  obtain ⟨c, hc, hckey, _⟩ := (hv.stored _ r.cid).mp (Or.inl ⟨r, hr, hkey, rfl⟩)
  obtain ⟨hns, hrest⟩ := Prod.mk.inj hckey
  obtain ⟨hid, rfl⟩ := Prod.mk.inj hrest
  exact ((hv.counted ns id).mem_iff.mp (mem_revs hc hns hid)).2

/-- The newest revision of an id is superseded by none. -/
lemma Consistent.not_superseded (hv : Consistent v) (hkeep : 1 ≤ keep) (ns' id : String) :
    ¬ Superseded v.tables ns keep refs (ns', id, ((revs v.tables ns' id).length : ℤ)) := by
  rintro ⟨rfl, htake, _⟩
  have hnewer := keep_le_newer hotRevs_sorted htake
  obtain ⟨rev, hrev⟩ := List.exists_mem_of_length_pos (lt_of_lt_of_le hkeep hnewer)
  obtain ⟨hhot, hlt⟩ := List.mem_filter.mp hrev
  have hle := hv.hot_le hhot
  have hgt := of_decide_eq_true hlt
  dsimp only at hle hgt
  omega

lemma Consistent.compact (hv : Consistent v) (hkeep : 1 ≤ keep)
    (h : Compacted ns keep now refs keys v.tables u) : Consistent { v with tables := u } := by
  have hrevs : ∀ ns id, revs u ns id = revs v.tables ns id := by
    intro ns id
    rw [revs, history, h.changelog]
    rfl
  refine ⟨?_, fun ns id => ?_, fun key c => ?_, ?_, fun ns' id hne => ?_, ?_, ?_, ?_, ?_⟩
  · dsimp only
    rw [h.changelog]
    exact hv.seqs
  · rw [hrevs]
    exact hv.counted ns id
  · dsimp only
    rw [h.stored, h.changelog]
    exact hv.stored key c
  · dsimp only
    intro r hr c hc he
    rw [h.objects] at hr
    obtain ⟨hr, hout⟩ := List.mem_filter.mp hr
    rcases (h.cold c).mp hc with hc | ⟨s, _, hin, rfl⟩
    · exact hv.disjoint r hr c hc he
    · exact of_decide_eq_true hout (he ▸ hin)
  · dsimp only at hne ⊢
    rw [hrevs] at hne ⊢
    obtain ⟨r, hr, hkey⟩ := hv.newest ns' id hne
    refine ⟨r, ?_, hkey⟩
    rw [h.objects]
    refine List.mem_filter.mpr ⟨hr, decide_eq_true ?_⟩
    rw [hkey, h.superseded]
    exact hv.not_superseded hkeep ns' id
  · dsimp only
    have hfilter : ∀ p : RevKey → Bool, (v.tables.ftsIndex.filter fun r => p r.key).map FtsRow.key =
        (v.tables.objects.rows.filter fun r => p r.key).map ObjectRow.key := by
      intro p
      have hh := congrArg (List.filter p) hv.fts
      rwa [List.filter_map, List.filter_map] at hh
    rw [h.fts, h.objects]
    exact hfilter fun key => key ∉ keys
  · dsimp only
    rw [h.changelog]
    exact hv.chained
  · dsimp only
    rw [h.changelog]
    exact hv.blobs
  · dsimp only
    rw [h.changelog]
    exact hv.named

end Compact

section Runs

variable {v : VaultDB}

lemma runWrite_consistent (hv : Consistent v) (faults : Faults) (now : ℕ) (write : Write) :
    Consistent (runWrite v faults now write).2 := by
  cases write with
  | append input =>
    rcases appendObject_cases v input faults with ⟨e, cas, he, hcas⟩ | ⟨cid, cas, u, hput, happ, hok⟩
    · rw [runWrite, he]
      rcases hcas with rfl | ⟨cid, hput⟩
      · exact hv
      · exact hv.blob hput
    · rw [runWrite, hok]
      exact hv.append hput happ
  | compact ns keep =>
    rcases compact_cases v ns keep now faults.sql with ⟨e, he⟩ | ⟨r, u, refs, keys, hkeep, hc, hok⟩
    · rw [runWrite, he]
      exact hv
    · rw [runWrite, hok]
      exact hv.compact (by omega) hc

lemma runWrite_error {faults : Faults} {now : ℕ} {write : Write} {e : String}
    (h : (runWrite v faults now write).1 = .error e) :
    (runWrite v faults now write).2.tables = v.tables := by
  cases write with
  | append input =>
    rcases appendObject_cases v input faults with ⟨e', cas, he, _⟩ | ⟨cid, cas, u, _, _, hok⟩
    · rw [runWrite, he]
    · rw [runWrite, hok] at h
      cases h
  | compact ns keep =>
    rcases compact_cases v ns keep now faults.sql with ⟨e', he⟩ | ⟨r, u, refs, keys, _, _, hok⟩
    · rw [runWrite, he]
    · rw [runWrite, hok] at h
      cases h

lemma step_vault {s s' : Store} {e : Event} (h : s.step e = some s') :
    s'.vault = s.vault ∨ ∃ faults now write, s'.vault = (runWrite s.vault faults now write).2 := by
  cases e with
  | append payload causationId =>
    rw [Store.step] at h
    split at h
    · cases h
      exact Or.inl rfl
    · cases h
      exact Or.inl rfl
  | compact payload =>
    rw [Store.step] at h
    split at h
    · cases h
      exact Or.inl rfl
    · cases h
      exact Or.inl rfl
  | turn faults now =>
    rw [Store.step] at h
    split at h
    · cases h
    · cases h
      exact Or.inr ⟨faults, now, _, rfl⟩

lemma reachable_consistent {s : Store} (h : store.Reachable System.free s) : Consistent s.vault := by
  refine System.Reachable.invariant (P := fun s : Store => Consistent s.vault) (fun s hs => ?_)
    (fun s e t _ hs _ ht => ?_) h
  · rw [hs]
    exact Consistent.empty
  · rcases step_vault ht with he | ⟨faults, now, write, he⟩
    · rw [he]
      exact hs
    · rw [he]
      exact runWrite_consistent hs faults now write

/-- A consistent vault passes its own proof walk. -/
lemma Consistent.verified (hv : Consistent v) : Verified v := by
  have hsorted := sortedLog_eq hv.seqs
  refine ⟨?_, ?_, ?_, ?_⟩
  · rw [hsorted]
    have hh := hv.seqs
    unfold Counting at hh
    rw [List.length_map] at hh
    exact hh
  · rw [hsorted]
    exact hv.chained
  · intro c hc
    rcases (hv.stored c.key c.cid).mpr ⟨c, hc, rfl, rfl⟩ with ⟨r, hr, hkey, _⟩ | ⟨r, hr, hkey, _⟩
    · rw [isStored, Table.find?_eq_some.mpr ⟨hr, hkey⟩]
      rfl
    · rw [isStored, Table.find?_eq_some.mpr ⟨hr, hkey⟩]
      simp
  · intro cid hcid
    have hstored : ∃ key, Stored v.tables key cid := by
      rcases mem_storedCids.mp hcid with ⟨r, hr, hc⟩ | ⟨r, hr, hc⟩
      · exact ⟨r.key, Or.inl ⟨r, hr, rfl, hc⟩⟩
      · exact ⟨r.key, Or.inr ⟨r, hr, rfl, hc⟩⟩
    obtain ⟨key, hkey⟩ := hstored
    obtain ⟨c, hc, _, rfl⟩ := (hv.stored key cid).mp hkey
    exact hv.blobs c hc

/-- Runs of appends and compactions, in any order and with any of them failing midway. -/
theorem store_invariant {s : Store} (h : store.Reachable System.free s) :
    Consistent s.vault ∧
      (∀ ns id cid, ¬ Stored s.vault.tables (ns, id, nextRev s.vault.tables ns id) cid) ∧
      ((verify s.vault).ok = true ∧ (verify s.vault).headHash = chainHead s.vault.tables) ∧
      ∀ faults now write e, (runWrite s.vault faults now write).1 = .error e →
        (runWrite s.vault faults now write).2.tables = s.vault.tables := by
  have hv := reachable_consistent h
  have hok := (verify_ok_iff s.vault).mpr hv.verified
  refine ⟨hv, hv.fresh, ⟨hok, ?_⟩, fun _ _ _ _ he => runWrite_error he⟩
  rw [headHash_of_ok hok, sortedLog_eq hv.seqs, chainHead_eq hv.seqs]

def textValue (s : String) : KeyedValue := ⟨.string (ofText s), .string _⟩

def appendEvent (ns id data : String) : Event :=
  .append ⟨_, keyed_named [("ns", (textValue ns).1), ("id", (textValue id).1),
    ("data", (textValue data).1)] (by simp) (by simp [textValue, Keyed.string])⟩ (textValue "cause")

def compactEvent (ns : String) (keep : ℤ) : Event :=
  .compact ⟨_, keyed_named [("ns", (textValue ns).1), ("keep", .number (Number.ofInt keep))]
    (by simp) (by simp [textValue, Keyed.string, Keyed.number])⟩

def noFaults : Faults := ⟨none, none⟩

/-- Two revisions, one append that fails at its changelog row, and a compaction. -/
def twoRevisions : List Event :=
  [appendEvent "n" "a" "1", appendEvent "n" "a" "2", compactEvent "n" 1, appendEvent "n" "a" "3",
    .turn noFaults 0, .turn noFaults 0, .turn noFaults 7, .turn ⟨none, some (6, "disk I/O error")⟩ 0]

theorem store_invariant_twoRevisions :
    ∃ s : Store, (s.vault.tables.objects.rows.map ObjectRow.key = [("n", "a", 2)] ∧
        s.vault.tables.coldObjects.rows.map ColdRow.key = [("n", "a", 1)]) ∧
      Consistent s.vault ∧ (verify s.vault).ok = true := by
  have hrun : (store.exec System.free ⟨VaultDB.empty, []⟩ twoRevisions).map (fun s : Store =>
      decide (s.vault.tables.objects.rows.map ObjectRow.key = [("n", "a", 2)] ∧
        s.vault.tables.coldObjects.rows.map ColdRow.key = [("n", "a", 1)])) = some true := by
    decide +kernel
  obtain ⟨s, hs, hf⟩ := System.exec_spec rfl hrun
  obtain ⟨hv, _, ⟨hok, _⟩, _⟩ := store_invariant hs
  exact ⟨s, of_decide_eq_true hf, hv, hok⟩

end Runs

end VivimOmega.Vault

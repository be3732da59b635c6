import VivimOmega.Library.Text
import VivimOmega.Vault.Readers

/-! What the proof walk is evidence of: a changelog that was appended cannot be rewritten under its
head. -/

namespace VivimOmega.Vault

open Library Library.Json Library.Sha256

section Chain

/-- The parts that the hashed text of a link joins. -/
def linkParts (f : LinkFields) (prevHash : String) : List String :=
  [toString f.seq, f.causationId, f.ns, f.id, toString f.rev, f.cid, prevHash]

lemma toList_linkText (f : LinkFields) (prevHash : String) :
    (linkText f prevHash).toList = ['|'].intercalate ((linkParts f prevHash).map String.toList) :=
  String.toList_intercalate

/-- No field of the link holds the separator. -/
def Separate (f : LinkFields) (prevHash : String) : Prop :=
  '|' ∉ f.causationId.toList ∧ '|' ∉ f.ns.toList ∧ '|' ∉ f.id.toList ∧ '|' ∉ f.cid.toList ∧
    '|' ∉ prevHash.toList

lemma bar_not_mem_toString (n : ℤ) : '|' ∉ (toString n).toList := by
  intro h
  rcases Text.mem_toString_int h with h | h
  · exact absurd h (by decide)
  · exact absurd h (by decide)

lemma Separate.parts {f : LinkFields} {prevHash : String} (h : Separate f prevHash) :
    ∀ part ∈ (linkParts f prevHash).map String.toList, '|' ∉ part := by
  obtain ⟨hcause, hns, hid, hcid, hprev⟩ := h
  simp only [linkParts, List.map_cons, List.map_nil, List.forall_mem_cons]
  exact ⟨bar_not_mem_toString f.seq, hcause, hns, hid, bar_not_mem_toString f.rev, hcid, hprev, by simp⟩

/-- Six separators are all there are, so whatever is hashed to the same text has the same fields. -/
lemma Separate.eq {f g : LinkFields} {p q : String} (hf : Separate f p)
    (h : linkText f p = linkText g q) : f = g ∧ p = q := by
  have hlists := congrArg String.toList h
  rw [toList_linkText, toList_linkText] at hlists
  have hparts := Text.intercalate_injective (by simp [linkParts]) (by simp [linkParts]) hf.parts hlists
  have hstrings : linkParts f p = linkParts g q :=
    List.map_injective_iff.mpr (fun _ _ => String.toList_injective) hparts
  obtain ⟨fseq, fcause, fns, fid, frev, fcid⟩ := f
  obtain ⟨gseq, gcause, gns, gid, grev, gcid⟩ := g
  simp only [linkParts, List.cons.injEq, and_true] at hstrings
  obtain ⟨hseq, rfl, rfl, rfl, hrev, rfl, rfl⟩ := hstrings
  rw [Text.toString_int_injective hseq, Text.toString_int_injective hrev]
  exact ⟨rfl, rfl⟩

lemma bar_not_mem_digest {s : String} (h : IsDigest s.toList) : '|' ∉ s.toList := by
  intro hmem
  exact absurd (h.2 '|' hmem) (by decide)

lemma bar_not_mem_back {d : String} {rows : List ChangelogRow} (hd : '|' ∉ d.toList)
    (h : chain.Chained d rows) : ∀ r ∈ rows, '|' ∉ r.prevHash.toList := by
  induction rows generalizing d with
  | nil => simp
  | cons r rest ih =>
    obtain ⟨hback, hstored, hrest⟩ := h
    have hdigest : '|' ∉ (chain.stored r).toList := by
      rw [hstored]
      exact bar_not_mem_digest (isDigest_sha256Hex _)
    refine List.forall_mem_cons.mpr ⟨?_, ih hdigest hrest⟩
    have hprev : r.prevHash = d := hback
    rw [hprev]
    exact hd

/-- An appended row has no separator inside its fields. -/
lemma Consistent.separate {v : VaultDB} (hv : Consistent v) {r : ChangelogRow}
    (hr : r ∈ v.tables.changelog.rows) : Separate r.toLinkFields r.prevHash := by
  obtain ⟨hcause, hns, hid⟩ := hv.named r hr
  have hhas := hv.blobs r hr
  rw [casHas, Bool.and_eq_true] at hhas
  have hcid : IsDigest r.cid.toList := of_decide_eq_true hhas.1
  exact ⟨bar_not_mem hcause, bar_not_mem hns, bar_not_mem hid, bar_not_mem_digest hcid,
    bar_not_mem_back (by decide) hv.chained r hr⟩

/-- The byte strings that the rows of a changelog have hashed. -/
def linkInputs (rows : List ChangelogRow) : Set (List UInt8) :=
  {bytes | ∃ r ∈ rows, bytes = utf8 (linkText r.toLinkFields r.prevHash)}

lemma entryHash_eq {v : VaultDB} (hv : Consistent v) {rows : List ChangelogRow} {r s : ChangelogRow}
    (hfree : CollisionFree (linkInputs v.tables.changelog.rows ∪ linkInputs rows))
    (hr : r ∈ v.tables.changelog.rows) (hs : s ∈ rows)
    (h : entryHash r.toLinkFields r.prevHash = entryHash s.toLinkFields s.prevHash) :
    r.toLinkFields = s.toLinkFields ∧ r.prevHash = s.prevHash := by
  have hsha : sha256 (utf8 (linkText r.toLinkFields r.prevHash)) =
      sha256 (utf8 (linkText s.toLinkFields s.prevHash)) := String.ofList_inj.mp h
  have hbytes := hfree.eq (Or.inl ⟨r, hr, rfl⟩) (Or.inr ⟨s, hs, rfl⟩) hsha
  exact (hv.separate hr).eq (utf8_injective hbytes)

lemma walk_append {i : ℕ} {prev : String} {same : List ChangelogRow} (rest : List ChangelogRow)
    (hn : Numbered i same) (hc : chain.Chained prev same) :
    walk (same ++ rest) i prev prev =
      walk rest (i + same.length) (chain.head prev same) (chain.head prev same) := by
  induction same generalizing i prev with
  | nil => rfl
  | cons r same ih =>
    obtain ⟨hfits, hn, hc⟩ := chained_cons.mp ⟨hn, hc⟩
    rw [List.cons_append, walk_fits (same ++ rest) prev hfits, ih hn hc, List.length_cons]
    have hlen : i + 1 + same.length = i + (same.length + 1) := by omega
    rw [hlen]
    rfl

lemma chained_split {i : ℕ} {prev : String} {same rest : List ChangelogRow} {r : ChangelogRow}
    (hn : Numbered i (same ++ r :: rest)) (hc : chain.Chained prev (same ++ r :: rest)) :
    (Numbered i same ∧ chain.Chained prev same) ∧
      Fits r (i + same.length) (chain.head prev same) := by
  induction same generalizing i prev with
  | nil =>
    refine ⟨⟨rfl, trivial⟩, ?_⟩
    exact (chained_cons.mp ⟨hn, hc⟩).1
  | cons s same ih =>
    obtain ⟨hfits, hn, hc⟩ := chained_cons.mp ⟨hn, hc⟩
    obtain ⟨hsame, hr⟩ := ih hn hc
    refine ⟨chained_cons.mpr ⟨hfits, hsame⟩, ?_⟩
    have hlen : i + (s :: same).length = i + 1 + same.length := by
      rw [List.length_cons]
      omega
    rw [hlen]
    exact hr

/-- Lists of one length that differ agree up to the first place where they do. -/
lemma first_difference {α : Type} {xs ys : List α} (hlen : xs.length = ys.length) (h : xs ≠ ys) :
    ∃ same x xrest y yrest, xs = same ++ x :: xrest ∧ ys = same ++ y :: yrest ∧ x ≠ y := by
  induction xs generalizing ys with
  | nil => exact absurd (List.eq_nil_of_length_eq_zero hlen.symm).symm h
  | cons x xs ih =>
    cases ys with
    | nil => cases hlen
    | cons y ys =>
      by_cases hxy : x = y
      · subst hxy
        have hrest : xs ≠ ys := fun he => h (by rw [he])
        obtain ⟨same, a, as, b, bs, rfl, rfl, hab⟩ := ih (by simpa using hlen) hrest
        exact ⟨x :: same, a, as, b, bs, rfl, rfl, hab⟩
      · exact ⟨[], x, xs, y, ys, rfl, rfl, hxy⟩

/-- No revision is linked twice. -/
lemma Consistent.link_unique {v : VaultDB} (hv : Consistent v) {c d : ChangelogRow}
    (hc : c ∈ v.tables.changelog.rows) (hd : d ∈ v.tables.changelog.rows) (h : c.key = d.key) :
    c = d := by
  obtain ⟨hns, hrest⟩ := Prod.mk.inj h
  obtain ⟨hid, hrev⟩ := Prod.mk.inj hrest
  have hnodup : (revs v.tables d.ns d.id).Nodup := (hv.counted d.ns d.id).pairwise.imp ne_of_lt
  exact List.inj_on_of_nodup_map hnodup (List.mem_filter.mpr ⟨hc, decide_eq_true ⟨hns, hid⟩⟩)
    (List.mem_filter.mpr ⟨hd, decide_eq_true ⟨rfl, rfl⟩⟩) hrev

lemma Consistent.numbered {v : VaultDB} (hv : Consistent v) : Numbered 0 v.tables.changelog.rows := by
  have hn := hv.verified.numbered
  rwa [sortedLog_eq hv.seqs] at hn

/-- A changelog that was appended cannot be replaced by another of its length under its head, and
one that keeps its hashes is found out at the first row that is not the same. -/
theorem changelog_tamper_evident {s : Store} (h : store.Reachable System.free s)
    {rows : List ChangelogRow} (hlen : rows.length = s.vault.tables.changelog.rows.length)
    (hfree : CollisionFree (linkInputs s.vault.tables.changelog.rows ∪ linkInputs rows)) :
    ((walk rows 0 genesisHash genesisHash).corruptAt = none →
      (walk rows 0 genesisHash genesisHash).head = chainHead s.vault.tables →
        rows = s.vault.tables.changelog.rows) ∧
      (rows.map ChangelogRow.entryHash = s.vault.tables.changelog.rows.map ChangelogRow.entryHash →
        rows.map ChangelogRow.prevHash = s.vault.tables.changelog.rows.map ChangelogRow.prevHash →
        rows ≠ s.vault.tables.changelog.rows →
        ∃ same r rest r' rest', s.vault.tables.changelog.rows = same ++ r :: rest ∧
          rows = same ++ r' :: rest' ∧ r ≠ r' ∧
          (walk rows 0 genesisHash genesisHash).corruptAt = some r'.seq) := by
  have hv := reachable_consistent h
  have hinj : ∀ r ∈ s.vault.tables.changelog.rows, ∀ r' ∈ rows,
      entryHash r.toLinkFields r.prevHash = entryHash r'.toLinkFields r'.prevHash →
        r.toLinkFields = r'.toLinkFields ∧ r.prevHash = r'.prevHash :=
    fun r hr r' hr' => entryHash_eq hv hfree hr hr'
  constructor
  · intro haccepted hhead
    obtain ⟨hiff, hwalkHead⟩ := walk_spec rows 0 genesisHash
    have hchained := (hiff.mp haccepted).2
    rw [hwalkHead haccepted, chainHead_eq hv.seqs] at hhead
    exact (chain.eq_of_head hlen.symm hv.chained hchained hhead.symm hinj).symm
  · intro hstored _ hne
    obtain ⟨same, r, rest, r', rest', hL, hrows, hdiff⟩ := first_difference hlen.symm hne.symm
    refine ⟨same, r, rest, r', rest', hL, hrows, hdiff, ?_⟩
    have hn := hv.numbered
    have hc := hv.chained
    rw [hL] at hn hc
    obtain ⟨⟨hsame, hsameChained⟩, hfits⟩ := chained_split hn hc
    have hkept : r'.entryHash = r.entryHash := by
      rw [hL, hrows, List.map_append, List.map_append, List.map_cons, List.map_cons] at hstored
      exact (List.cons.inj (List.append_cancel_left hstored)).1
    rw [hrows, walk_append (r' :: rest') hsame hsameChained]
    apply walk_unfit
    rintro ⟨_, hback', hstored'⟩
    obtain ⟨_, hback, hhash⟩ := hfits
    obtain ⟨hfields, hprev⟩ := hinj r (by rw [hL]; simp) r' (by rw [hrows]; simp) (by
      rw [hback, hback', ← hhash, ← hstored', hkept])
    exact hdiff (chain.ext r r' hfields hkept.symm hprev)

/-- The first link of a vault whose one object is the text "1". -/
def firstLink : LinkFields :=
  ⟨1, "cause", "n", "a", 1, "391552c099c101b131feaf24c5795a6a15bc8ec82015424e0d2b4274a369a0bf"⟩

lemma reachable_firstLink : ∃ s : Store, store.Reachable System.free s ∧ ∃ hash,
    s.vault.tables.changelog.rows = [⟨firstLink, hash, genesisHash⟩] := by
  have hrun : (store.exec System.free ⟨VaultDB.empty, []⟩
      [appendEvent "n" "a" "1", .turn noFaults 0]).map (fun s : Store =>
        decide (s.vault.tables.changelog.rows.map (fun r => (r.toLinkFields, r.prevHash)) =
          [(firstLink, genesisHash)])) = some true := by
    decide +kernel
  obtain ⟨s, hs, hf⟩ := System.exec_spec rfl hrun
  obtain ⟨r, hrows, hr⟩ := List.map_eq_singleton_iff.mp (of_decide_eq_true hf)
  obtain ⟨hfields, hprev⟩ := Prod.mk.inj hr
  refine ⟨s, hs, r.entryHash, ?_⟩
  rw [hrows, ← hfields, ← hprev]

theorem changelog_tamper_evident_rev : ∃ (s : Store) (hash : String),
    s.vault.tables.changelog.rows = [⟨firstLink, hash, genesisHash⟩] ∧
      (walk [⟨{ firstLink with rev := 2 }, hash, genesisHash⟩] 0 genesisHash genesisHash).corruptAt =
        some 1 := by
  obtain ⟨s, hs, hash, hrows⟩ := reachable_firstLink
  have hdiff : sha256 (utf8 (linkText firstLink genesisHash)) ≠
      sha256 (utf8 (linkText { firstLink with rev := 2 } genesisHash)) := by
    decide +kernel
  have hfree : CollisionFree (linkInputs s.vault.tables.changelog.rows ∪
      linkInputs [⟨{ firstLink with rev := 2 }, hash, genesisHash⟩]) := by
    rw [hrows]
    rintro m (⟨r, hr, rfl⟩ | ⟨r, hr, rfl⟩) n (⟨r', hr', rfl⟩ | ⟨r', hr', rfl⟩) he
    · rw [List.mem_singleton.mp hr, List.mem_singleton.mp hr']
    · rw [List.mem_singleton.mp hr, List.mem_singleton.mp hr'] at he
      exact absurd he hdiff
    · rw [List.mem_singleton.mp hr, List.mem_singleton.mp hr'] at he
      exact absurd he.symm hdiff
    · rw [List.mem_singleton.mp hr, List.mem_singleton.mp hr']
  obtain ⟨_, hreject⟩ := changelog_tamper_evident hs (by rw [hrows]; rfl) hfree
  obtain ⟨same, r, rest, r', rest', hL, hone, _, hat⟩ := hreject (by rw [hrows]; rfl) (by rw [hrows]; rfl)
    (by rw [hrows]; simp [firstLink])
  have hmem : r' ∈ same ++ r' :: rest' := List.mem_append_right _ List.mem_cons_self
  rw [← hone] at hmem
  refine ⟨s, hash, hrows, ?_⟩
  rw [hat, List.mem_singleton.mp hmem]
  rfl

end Chain

section Verdict

variable {v : VaultDB}

/-- Every readable revision is the one that was appended. -/
structure Sound (v : VaultDB) : Prop where
  carried : ∀ c ∈ v.tables.changelog.rows, ∀ r, Present v.tables r → r.key = c.key → r.cid = c.cid
  known : ∀ r, Present v.tables r → ∃ c ∈ v.tables.changelog.rows, c.key = r.key
  read : ∀ c ∈ v.tables.changelog.rows, ∃ r text, readRow v.tables c.ns c.id (some c.rev) = some r ∧
    v.cas.get? r.cid = some text ∧ Genuine c.cid text

/-- What the proof walk does not look at: cids of stored rows, rows of no link, and blobs. -/
structure Faithful (v : VaultDB) : Prop where
  pairs : ∀ r, Present v.tables r → ∃ c ∈ v.tables.changelog.rows, c.key = r.key ∧ c.cid = r.cid
  single : ∀ c ∈ v.tables.changelog.rows, ∀ d ∈ v.tables.changelog.rows, c.key = d.key → c.cid = d.cid
  blobs : ∀ cid ∈ storedCids v.tables, ∀ text, v.cas.get? cid = some text → Genuine cid text

lemma present_of_readRow {t : Tables} {ns id : String} {rev : ℤ} {r : ObjectRow}
    (h : readRow t ns id (some rev) = some r) : Present t r ∧ r.key = (ns, id, rev) := by
  rw [readRow, Option.or_eq_some_iff, hotRow, coldRow, Option.map_eq_some_iff] at h
  rcases h with h | ⟨_, c, hc, rfl⟩
  · obtain ⟨hr, hkey⟩ := Table.find?_eq_some.mp h
    exact ⟨Or.inl hr, hkey⟩
  · obtain ⟨hc, hkey⟩ := Table.find?_eq_some.mp hc
    exact ⟨Or.inr ⟨c, hc, rfl⟩, hkey⟩

lemma readRow_of_isStored {t : Tables} {ns id : String} {rev : ℤ}
    (h : isStored t (ns, id, rev) = true) : ∃ r, readRow t ns id (some rev) = some r := by
  rw [isStored, Bool.or_eq_true] at h
  rw [readRow, hotRow, coldRow]
  cases hhot : t.objects.find? (ns, id, rev) with
  | some r => exact ⟨r, rfl⟩
  | none =>
    rw [hhot] at h
    obtain ⟨c, hc⟩ := Option.isSome_iff_exists.mp (h.resolve_left (by simp))
    exact ⟨c.toObjectRow, by rw [hc]; rfl⟩

lemma mem_storedCids_of_present {t : Tables} {r : ObjectRow} (h : Present t r) :
    r.cid ∈ storedCids t := by
  rcases h with h | ⟨c, hc, rfl⟩
  · exact mem_storedCids.mpr (Or.inl ⟨r, h, rfl⟩)
  · exact mem_storedCids.mpr (Or.inr ⟨c, hc, rfl⟩)

lemma present_of_mem_storedCids {t : Tables} {cid : String} (h : cid ∈ storedCids t) :
    ∃ r, Present t r ∧ r.cid = cid := by
  rcases mem_storedCids.mp h with ⟨r, hr, hcid⟩ | ⟨c, hc, hcid⟩
  · exact ⟨r, Or.inl hr, hcid⟩
  · exact ⟨c.toObjectRow, Or.inr ⟨c, hc, rfl⟩, hcid⟩

lemma Verified.sound (h : Verified v) (hf : Faithful v) : Sound v := by
  have hcarried : ∀ c ∈ v.tables.changelog.rows, ∀ r, Present v.tables r → r.key = c.key →
      r.cid = c.cid := by
    intro c hc r hr hkey
    obtain ⟨d, hd, hdkey, hdcid⟩ := hf.pairs r hr
    rw [← hdcid]
    exact hf.single d hd c hc (hdkey.trans hkey)
  refine ⟨hcarried, fun r hr => ?_, fun c hc => ?_⟩
  · obtain ⟨c, hc, hkey, _⟩ := hf.pairs r hr
    exact ⟨c, hc, hkey⟩
  · obtain ⟨r, hread⟩ := readRow_of_isStored (h.resolved c hc)
    obtain ⟨hr, hkey⟩ := present_of_readRow hread
    have hcid := hcarried c hc r hr hkey
    have hmem := mem_storedCids_of_present hr
    have hhas := h.blobs r.cid hmem
    rw [casHas, Bool.and_eq_true] at hhas
    obtain ⟨text, htext⟩ := (OrderedMap.has_iff _ _).mp hhas.2
    refine ⟨r, text, hread, htext, ?_⟩
    rw [← hcid]
    exact hf.blobs r.cid hmem text htext

lemma Sound.faithful (h : Sound v) : Faithful v := by
  have hpairs : ∀ r, Present v.tables r → ∃ c ∈ v.tables.changelog.rows, c.key = r.key ∧ c.cid = r.cid := by
    intro r hr
    obtain ⟨c, hc, hkey⟩ := h.known r hr
    exact ⟨c, hc, hkey, (h.carried c hc r hr hkey.symm).symm⟩
  refine ⟨hpairs, fun c hc d hd hkey => ?_, fun cid hcid text htext => ?_⟩
  · obtain ⟨r, _, hread, _⟩ := h.read c hc
    obtain ⟨hr, hrkey⟩ := present_of_readRow hread
    rw [← h.carried c hc r hr hrkey, ← h.carried d hd r hr (hrkey.trans hkey)]
  · obtain ⟨r, hr, rfl⟩ := present_of_mem_storedCids hcid
    obtain ⟨c, hc, hkey, hccid⟩ := hpairs r hr
    obtain ⟨s, stored, hread, hstored, hgenuine⟩ := h.read c hc
    obtain ⟨hs, hskey⟩ := present_of_readRow hread
    rw [h.carried c hc s hs hskey, hccid, htext] at hstored
    cases hstored
    rw [← hccid]
    exact hgenuine

/-- What no one has tampered with is sound. -/
theorem reachable_sound {s : Store} (h : store.Reachable System.free s) : Sound s.vault := by
  have hv := reachable_consistent h
  have hr := reachable_readable h
  refine hv.verified.sound ⟨fun r hpresent => ?_, fun c hc d hd hkey => ?_, fun cid _ text ht =>
    hr.blobs cid text ht⟩
  · have hstored : Stored s.vault.tables r.key r.cid := by
      rcases hpresent with hr | ⟨c, hc, rfl⟩
      · exact Or.inl ⟨r, hr, rfl, rfl⟩
      · exact Or.inr ⟨c, hc, rfl, rfl⟩
    exact (hv.stored _ _).mp hstored
  · rw [hv.link_unique hc hd hkey]

/-- One stored row, which carries the cid given and not that of its link, and the blob of that cid. -/
def swapped (log : Table ℤ ChangelogRow fun r => r.seq) (cid text : String) : VaultDB :=
  ⟨⟨⟨[⟨"n", "a", 1, cid, "\x7b\"meta\":null,\"refs\":[]\x7d"⟩], List.nodup_singleton _⟩, Table.empty,
    log, []⟩, OrderedMap.empty.set cid text⟩

/-- The digest of the text "2". -/
def otherCid : String := "cc11310c456c3690d5a74c23aa31cc25b4e74cdae146c71e54ad9dbc1d109fde"

end Verdict

end VivimOmega.Vault

import VivimOmega.Chat.Handlers

/-! The record of a conversation in the log of the vault, and what the rows of the chat change of it. -/

namespace VivimOmega.Chat

open Library Library.Json Vault

section Keys

lemma plain_id {stem : String} (hstem : ∀ u ∈ stemText stem, ¬ IsSurrogate u) {s : JsString} (h : isId stem s = true) :
    ∀ u ∈ s, ¬ IsSurrogate u := by
  simp only [isId, Bool.and_eq_true, List.isPrefixOf_iff_prefix, List.all_eq_true] at h
  obtain ⟨⟨⟨⟨rest, rfl⟩, _⟩, _⟩, hunits⟩ := h
  rw [List.drop_left] at hunits
  intro u hu
  obtain hu | hu := List.mem_append.mp hu
  · exact hstem u hu
  · exact plain_idUnit (hunits u hu)

lemma plain_stem : ∀ stem ∈ ["conv", "msg", "idx", "refusal"], ∀ u ∈ stemText stem, ¬ IsSurrogate u := by
  have hunits : ∀ stem ∈ ["conv", "msg", "idx", "refusal"], (stemText stem).all isIdUnit = true := by decide
  exact fun stem hstem u hu => plain_idUnit (List.all_eq_true.mp (hunits stem hstem) u hu)

lemma ofText_key {stem : String} (hstem : stem ∈ ["conv", "msg", "idx", "refusal"]) {s : JsString}
    (h : isId stem s = true) : ofText (key s) = s :=
  ofText_toText (plain_id (plain_stem stem hstem) h)

def indexText (conversationId : JsString) : JsString := stemText "idx" ++ conversationId.drop (stemText "conv").length

lemma isId_indexText (c : Id "conv") : isId "idx" (indexText c.1) = true := by
  have h := c.2
  simp only [isId, Bool.and_eq_true] at h ⊢
  simp only [indexText, List.drop_left, List.isPrefixOf_iff_prefix]
  exact ⟨⟨⟨List.prefix_append _ _, h.1.1.2⟩, h.1.2⟩, h.2⟩

lemma chatIndexId_id (c : Id "conv") : chatIndexId c.1 = .ok (indexText c.1) := by
  have h := c.2
  simp only [isId, Bool.and_eq_true] at h
  rw [chatIndexId, if_pos h.1.1.1]
  rfl

/-- The key of the index row of a conversation. -/
def indexKey (c : Id "conv") : String := key (indexText c.1)

lemma indexKey_injective : Function.Injective indexKey := by
  intro c d h
  have htext := congrArg ofText h
  rw [indexKey, indexKey, ofText_key (by decide) (isId_indexText c), ofText_key (by decide) (isId_indexText d)] at htext
  have hdrop := List.append_cancel_left htext
  have hc := c.2
  have hd := d.2
  simp only [isId, Bool.and_eq_true, List.isPrefixOf_iff_prefix] at hc hd
  obtain ⟨restc, hrestc⟩ := hc.1.1.1
  obtain ⟨restd, hrestd⟩ := hd.1.1.1
  apply Subtype.ext
  rw [← hrestc, ← hrestd] at hdrop ⊢
  rw [List.drop_left, List.drop_left] at hdrop
  rw [hdrop]

/-- Keys of different kinds differ. -/
lemma key_ne {stem stem' : String} (hstem : stem ∈ ["conv", "msg", "idx", "refusal"])
    (hstem' : stem' ∈ ["conv", "msg", "idx", "refusal"]) (hne : stem ≠ stem') {s t : JsString} (hs : isId stem s = true)
    (ht : isId stem' t = true) : key s ≠ key t := by
  intro h
  have htext := congrArg ofText h
  rw [ofText_key hstem hs, ofText_key hstem' ht] at htext
  subst htext
  simp only [isId, Bool.and_eq_true, List.isPrefixOf_iff_prefix] at hs ht
  have hhead : ∀ a ∈ ["conv", "msg", "idx", "refusal"], ∀ b ∈ ["conv", "msg", "idx", "refusal"], a ≠ b →
      (stemText a).head? ≠ (stemText b).head? ∧ stemText a ≠ [] ∧ stemText b ≠ [] := by
    decide +kernel
  obtain ⟨hdiffer, hnil, hnil'⟩ := hhead stem hstem stem' hstem' hne
  obtain ⟨u, rest, hu⟩ := List.exists_cons_of_ne_nil hnil
  obtain ⟨v, rest', hv⟩ := List.exists_cons_of_ne_nil hnil'
  rw [hu] at hs hdiffer
  rw [hv] at ht hdiffer
  obtain ⟨x, rfl⟩ := hs.1.1.1
  obtain ⟨y, hy⟩ := ht.1.1.1
  exact hdiffer (congrArg some (List.head_eq_of_cons_eq hy).symm)

end Keys

section Rows

def row? (s : Log) (id : String) : Option Value := (s.latest? chatNs id).map Revision.data

lemma row?_append (s : Log) (r : Revision) (id : String) :
    row? (s ++ [r]) id = if r.ns = chatNs ∧ r.id = id then some r.data else row? s id := by
  rw [row?, Log.latest?_append]
  split_ifs <;> rfl

/-- What the scan of a conversation finds. -/
def scan (s : Log) (c : JsString) : List ChatMessage :=
  (s.selected chatNs (some "msg_")).filterMap fun id => (row? s id).bind (messageOf c)

lemma revisions_of_row? {s : Log} {id : String} : row? s id = none ↔ id ∉ s.ids chatNs := by
  rw [mem_ids, not_not, row?, Option.map_eq_none_iff, Log.latest?, List.getLast?_eq_none_iff]

def listed (id : String) : Bool := like (escapeLike "msg_".toList ++ ['%']) id.toList

/-- A row under a new id is listed with the others, where the scan asks for ids of its kind. -/
lemma selected_append (s : Log) {r : Revision} (hns : r.ns = chatNs) : ((s ++ [r] : Log).selected chatNs (some "msg_")).Perm
    (s.selected chatNs (some "msg_") ++ if listed r.id ∧ row? s r.id = none then [r.id] else []) := by
  have hids : (Log.ids (s ++ [r]) chatNs).Perm (s.ids chatNs ++ if row? s r.id = none then [r.id] else []) := by
    have hrow : row? s r.id = none ↔ r.id ∉ (s.filter fun r => r.ns = chatNs).map Revision.id := by
      rw [revisions_of_row?, Log.ids, List.mem_insertionSort, List.mem_eraseDups]
    rw [Log.ids, Log.ids]
    refine (List.perm_insertionSort _ _).trans ?_
    rw [List.filter_append, List.map_append, List.eraseDups_append]
    refine List.Perm.append (List.perm_insertionSort _ _).symm ?_
    simp only [List.filter_singleton, hns, decide_true, cond_true, List.map_cons, List.map_nil]
    split_ifs with hnone
    · rw [List.removeAll, List.filter_singleton]
      simp [hrow.mp hnone, List.eraseDups_cons]
    · rw [List.removeAll, List.filter_singleton]
      simp [not_not.mp (mt hrow.mpr hnone)]
  have hfilter := hids.filter listed
  rw [List.filter_append] at hfilter
  refine hfilter.trans (List.Perm.append_left _ ?_)
  split_ifs with hnone hboth hboth
  · rw [List.filter_singleton, hboth.1]
    exact .refl _
  · have hnot : listed r.id = false := by
      by_contra hlisted
      exact hboth ⟨by simpa using hlisted, hnone⟩
    rw [List.filter_singleton, hnot]
    exact .refl _
  · exact absurd hboth.2 hnone
  · exact .refl _

lemma wellFormed_append (cs : List Char) (s : JsString) : wellFormed (cs.flatMap units ++ s) = cs ++ wellFormed s := by
  induction cs with
  | nil => rfl
  | cons c cs ih =>
    rw [List.flatMap_cons, List.append_assoc, wellFormed_units c ih]
    rfl

lemma toList_key {stem : String} {s : JsString} (h : isId stem s = true) :
    ∃ rest, (key s).toList = (stem ++ "_").toList ++ rest := by
  simp only [isId, Bool.and_eq_true, List.isPrefixOf_iff_prefix] at h
  obtain ⟨rest, rfl⟩ := h.1.1.1
  exact ⟨wellFormed rest, by rw [key, toText, String.toList_ofList, stemText, ofText, wellFormed_append]⟩

lemma not_listed {stem : String} (hstem : stem ∈ ["conv", "idx", "refusal"]) {s : JsString} (h : isId stem s = true) :
    listed (key s) = false := by
  obtain ⟨rest, hrest⟩ := toList_key h
  have hheads : ∀ stem ∈ ["conv", "idx", "refusal"],
      (stem ++ "_").toList ≠ [] ∧ ((stem ++ "_").toList.map Char.toLower).head? ≠ some 'm' := by
    decide
  obtain ⟨hne, hhead⟩ := hheads stem hstem
  by_contra hlisted
  rw [Bool.not_eq_false, listed, like_escapeLike, hrest, List.map_append] at hlisted
  obtain ⟨c, cs, hcs⟩ := List.exists_cons_of_ne_nil hne
  rw [hcs] at hlisted hhead
  obtain ⟨tail, htail⟩ := hlisted
  exact hhead (congrArg some (List.head_eq_of_cons_eq htail).symm)

lemma listed_message {s : JsString} (h : isId "msg" s = true) : listed (key s) = true := by
  obtain ⟨rest, hrest⟩ := toList_key h
  rw [listed, like_escapeLike, hrest, List.map_append]
  exact List.prefix_append _ _

/-- A row of another kind than a message is not scanned. -/
lemma scan_other (s : Log) {r : Revision} (hns : r.ns = chatNs) (hlisted : listed r.id = false) (c : JsString) :
    (scan (s ++ [r]) c).Perm (scan s c) := by
  have hids := selected_append s hns
  rw [hlisted] at hids
  simp only [Bool.false_eq_true, false_and, if_false, List.append_nil] at hids
  refine (hids.filterMap _).trans (List.Perm.of_eq (List.filterMap_congr fun id hid => ?_))
  have hne : r.id ≠ id := by
    rintro rfl
    have hlike := (List.mem_filter.mp hid).2
    rw [Option.all_some] at hlike
    exact absurd hlike (by rw [← listed, hlisted]; decide)
  rw [row?_append, if_neg fun h => hne h.2]

/-- A message under a new id is scanned with the others of its conversation. -/
lemma scan_message (s : Log) {r : Revision} {m : ChatMessage} (hns : r.ns = chatNs) (hlisted : listed r.id = true)
    (hdata : r.data = m.value) (hfresh : row? s r.id = none) (c : JsString) :
    (scan (s ++ [r]) c).Perm (scan s c ++ if m.conversationId = c then [m] else []) := by
  have hids := selected_append s hns
  rw [if_pos ⟨hlisted, hfresh⟩] at hids
  refine (hids.filterMap _).trans ?_
  rw [List.filterMap_append]
  refine List.Perm.append (List.Perm.of_eq (List.filterMap_congr fun id hid => ?_)) ?_
  · have hne : r.id ≠ id := by
      rintro rfl
      exact revisions_of_row?.mp hfresh (List.mem_filter.mp hid).1
    rw [row?_append, if_neg fun h => hne h.2]
  · rw [List.filterMap_cons, row?_append, if_pos ⟨hns, rfl⟩, hdata, Option.bind_some, messageOf, asChatMessage_value]
    by_cases hc : m.conversationId = c
    · simp [Option.filter, hc]
    · simp [Option.filter, hc]

end Rows

section Transcripts

def entryOf (m : ChatMessage) : ChatIndexEntry := ⟨m.id, m.seq.1⟩

/-- The index row of a conversation stands for its messages; where there is none yet, a scan finds them. -/
def Indexes (c : Id "conv") (l : List ChatMessage) (s : Log) : Option Value → Prop
  | none => (scan s c.1).Perm l
  | some data => ∃ i, asChatIndex data = some i ∧ i.conversationId = c.1 ∧ i.count = l.length ∧ i.entries.Perm (l.map entryOf)

/-- The log holds a conversation: its messages in order, numbered from one, each in a row of its own. -/
structure Holds (s : Log) (c : Id "conv") (l : List ChatMessage) : Prop where
  ordered : l.map (fun m => m.seq.1) = List.range' 1 l.length
  bounded : l.length ≤ historyCap
  stored : ∀ m ∈ l, isId "msg" m.id = true ∧ m.conversationId = c.1 ∧ row? s (key m.id) = some m.value
  indexed : Indexes c l s (row? s (indexKey c))

variable {s : Log} {c : Id "conv"} {l : List ChatMessage} {r : Revision} {m : ChatMessage}

lemma row?_of_empty (h : ∀ r ∈ s, r.ns ≠ chatNs) (id : String) : row? s id = none := by
  rw [row?, Option.map_eq_none_iff, Log.latest?, List.getLast?_eq_none_iff, Log.revisions, List.filter_eq_nil_iff]
  intro r hr
  simp [h r hr]

lemma holds_nil (h : ∀ r ∈ s, r.ns ≠ chatNs) (c : Id "conv") : Holds s c [] := by
  have hrow := row?_of_empty h
  have hscan : scan s c.1 = [] := by
    rw [scan, List.filterMap_eq_nil_iff]
    intro id _
    rw [hrow id]
    rfl
  refine ⟨rfl, Nat.zero_le _, fun m hm => absurd hm List.not_mem_nil, ?_⟩
  rw [hrow, Indexes, hscan]

lemma ordered_append (h : l.map (fun m => m.seq.1) = List.range' 1 l.length) (hseq : m.seq.1 = l.length + 1) :
    (l ++ [m]).map (fun m => m.seq.1) = List.range' 1 (l ++ [m]).length := by
  rw [List.map_append, h, List.length_append, List.length_singleton, List.range'_concat, List.map_singleton, hseq, one_mul,
    Nat.add_comm]

lemma isId_listed {stem : String} (hstem : stem ∈ ["conv", "msg", "idx", "refusal"]) {x : JsString}
    (h : isId stem x = true) : listed (key x) = true ↔ stem = "msg" := by
  constructor
  · intro hlisted
    by_contra hne
    have hother : stem ∈ ["conv", "idx", "refusal"] := by
      simp only [List.mem_cons, List.not_mem_nil, or_false] at hstem ⊢
      tauto
    rw [not_listed hother h] at hlisted
    cases hlisted
  · rintro rfl
    exact listed_message h

/-- A row that is neither a message nor the index of the conversation leaves its record alone. -/
lemma holds_apart (h : Holds s c l) (hns : r.ns = chatNs) (hlisted : listed r.id = false) (hindex : r.id ≠ indexKey c) :
    Holds (s ++ [r]) c l := by
  refine ⟨h.ordered, h.bounded, fun m hm => ?_, ?_⟩
  · obtain ⟨hid, hconversation, hrow⟩ := h.stored m hm
    have hne : r.id ≠ key m.id := by
      intro he
      rw [he, listed_message hid] at hlisted
      cases hlisted
    rw [row?_append, if_neg fun h => hne h.2]
    exact ⟨hid, hconversation, hrow⟩
  · have hindexed := h.indexed
    rw [row?_append, if_neg fun h => hindex h.2]
    cases hrow : row? s (indexKey c) with
    | none =>
      rw [hrow] at hindexed
      exact (scan_other s hns hlisted c.1).trans hindexed
    | some data =>
      rw [hrow] at hindexed
      exact hindexed

lemma index_not_message (c : Id "conv") {x : JsString} (h : isId "msg" x = true) : key x ≠ indexKey c :=
  key_ne (by decide) (by decide) (by decide) h (isId_indexText c)

/-- A message under a new id: of another conversation, or of one that has its index row, it does not count yet. -/
lemma holds_message (h : Holds s c l) (hns : r.ns = chatNs) (hid : isId "msg" m.id = true) (hkey : r.id = key m.id)
    (hdata : r.data = m.value) (hfresh : row? s r.id = none)
    (hother : m.conversationId ≠ c.1 ∨ row? s (indexKey c) ≠ none) : Holds (s ++ [r]) c l := by
  refine ⟨h.ordered, h.bounded, fun m' hm' => ?_, ?_⟩
  · obtain ⟨hid', hconversation, hrow⟩ := h.stored m' hm'
    have hne : r.id ≠ key m'.id := by
      intro he
      rw [← he, hfresh] at hrow
      cases hrow
    rw [row?_append, if_neg fun h => hne h.2]
    exact ⟨hid', hconversation, hrow⟩
  · have hindexed := h.indexed
    rw [row?_append, if_neg fun h => index_not_message c hid (hkey ▸ h.2)]
    cases hrow : row? s (indexKey c) with
    | none =>
      rw [hrow] at hindexed
      have hscan := scan_message s hns (hkey ▸ listed_message hid) hdata hfresh c.1
      rw [if_neg (hother.resolve_right (not_not_intro hrow)), List.append_nil] at hscan
      exact hscan.trans hindexed
    | some data =>
      rw [hrow] at hindexed
      exact hindexed

/-- Where there is no index row yet, a message counts as soon as it is there. -/
lemma holds_scanned (h : Holds s c l) (hns : r.ns = chatNs) (hid : isId "msg" m.id = true) (hkey : r.id = key m.id)
    (hdata : r.data = m.value) (hfresh : row? s r.id = none) (hconversation : m.conversationId = c.1)
    (hnone : row? s (indexKey c) = none) (hseq : m.seq.1 = l.length + 1) (hcap : l.length < historyCap) :
    Holds (s ++ [r]) c (l ++ [m]) := by
  refine ⟨ordered_append h.ordered hseq, ?_, fun m' hm' => ?_, ?_⟩
  · rw [List.length_append, List.length_singleton]
    exact hcap
  · obtain hold | hnew := List.mem_append.mp hm'
    · obtain ⟨hid', hconversation', hrow⟩ := h.stored m' hold
      have hne : r.id ≠ key m'.id := by
        intro he
        rw [← he, hfresh] at hrow
        cases hrow
      rw [row?_append, if_neg fun h => hne h.2]
      exact ⟨hid', hconversation', hrow⟩
    · obtain rfl := List.mem_singleton.mp hnew
      rw [row?_append, if_pos ⟨hns, hkey⟩]
      exact ⟨hid, hconversation, congrArg some hdata⟩
  · have hindexed := h.indexed
    rw [hnone] at hindexed
    rw [row?_append, if_neg fun h => index_not_message c hid (hkey ▸ h.2), hnone]
    have hscan := scan_message s hns (hkey ▸ listed_message hid) hdata hfresh c.1
    rw [if_pos hconversation] at hscan
    exact hscan.trans (hindexed.append_right _)

/-- An index row that lists messages that are there makes them the record. -/
lemma holds_index {i : ChatIndex} (hordered : l.map (fun m => m.seq.1) = List.range' 1 l.length)
    (hbounded : l.length ≤ historyCap)
    (hstored : ∀ m ∈ l, isId "msg" m.id = true ∧ m.conversationId = c.1 ∧ row? s (key m.id) = some m.value)
    (hns : r.ns = chatNs) (hkey : r.id = indexKey c) (hdata : asChatIndex r.data = some i)
    (hconversation : i.conversationId = c.1) (hcount : i.count = l.length) (hentries : i.entries.Perm (l.map entryOf)) :
    Holds (s ++ [r]) c l := by
  refine ⟨hordered, hbounded, fun m hm => ?_, ?_⟩
  · obtain ⟨hid, hconv, hrow⟩ := hstored m hm
    rw [row?_append, if_neg fun h => index_not_message c hid (h.2.symm.trans hkey)]
    exact ⟨hid, hconv, hrow⟩
  · rw [row?_append, if_pos ⟨hns, hkey⟩]
    exact ⟨i, hdata, hconversation, hcount, hentries⟩

instance instTotalEntryLe : Std.Total entryLe := ⟨fun a b => Nat.le_total a.seq b.seq⟩

instance instTransEntryLe : IsTrans ChatIndexEntry entryLe := ⟨fun _ _ _ hab hbc => Nat.le_trans hab hbc⟩

/-- The entries of an index, put in order, are those of the record. -/
lemma sorted_entries {es : List ChatIndexEntry} (h : es.Perm (l.map entryOf))
    (hordered : l.map (fun m => m.seq.1) = List.range' 1 l.length) : es.insertionSort entryLe = l.map entryOf := by
  have hsorted : (l.map entryOf).Pairwise fun a b => a.seq < b.seq := by
    have hrange : (List.range' 1 l.length).Pairwise (· < ·) := List.pairwise_lt_range'
    rw [← hordered, List.pairwise_map] at hrange
    rw [List.pairwise_map]
    exact hrange
  have hperm : (es.insertionSort entryLe).Perm (l.map entryOf) := (List.perm_insertionSort _ _).trans h
  have hnodup : ((l.map entryOf).map ChatIndexEntry.seq).Nodup := by
    rw [List.map_map]
    exact hordered ▸ List.nodup_range'
  refine hperm.eq_of_pairwise (fun a b ha hb hab hba => ?_) (List.pairwise_insertionSort _ _)
    (hsorted.imp fun hlt => hlt.le)
  exact List.inj_on_of_nodup_map hnodup (hperm.mem_iff.mp ha) hb (Nat.le_antisymm hab hba)

lemma value_injective {m m' : ChatMessage} (h : m.value = m'.value) : m = m' := by
  have hread := congrArg asChatMessage h
  rw [asChatMessage_value, asChatMessage_value] at hread
  exact Option.some.inj hread

/-- A log holds one record of a conversation. -/
lemma holds_unique {l' : List ChatMessage} (h : Holds s c l) (h' : Holds s c l') : l = l' := by
  have hindexed := h.indexed
  have hindexed' := h'.indexed
  have hentries : (l.map entryOf).Perm (l'.map entryOf) := by
    cases hrow : row? s (indexKey c) with
    | none =>
      rw [hrow] at hindexed hindexed'
      exact (hindexed.symm.trans hindexed').map entryOf
    | some data =>
      rw [hrow] at hindexed hindexed'
      obtain ⟨i, hi, _, _, hperm⟩ := hindexed
      obtain ⟨i', hi', _, _, hperm'⟩ := hindexed'
      obtain rfl := Option.some.inj (hi.symm.trans hi')
      exact hperm.symm.trans hperm'
  have hsame : l.map entryOf = l'.map entryOf :=
    (sorted_entries (List.Perm.refl _) h.ordered).symm.trans (sorted_entries hentries h'.ordered)
  -- an id has one row, and that one message
  have hinj : ∀ m ∈ l, ∀ m' ∈ l', entryOf m = entryOf m' → m = m' := by
    intro m hm m' hm' he
    obtain ⟨_, _, hrow⟩ := h.stored m hm
    obtain ⟨_, _, hrow'⟩ := h'.stored m' hm'
    have hid : m.id = m'.id := congrArg ChatIndexEntry.id he
    rw [hid, hrow'] at hrow
    exact value_injective (Option.some.inj hrow).symm
  have hlength : l.length = l'.length := by simpa using congrArg List.length hsame
  refine List.ext_getElem hlength fun i hi hi' => hinj _ (List.getElem_mem hi) _ (List.getElem_mem hi') ?_
  have hget := List.getElem_of_eq hsame (i := i) (by simpa using hi)
  simpa using hget

end Transcripts

end VivimOmega.Chat

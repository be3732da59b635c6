import VivimOmega.Chat.Transcript
import VivimOmega.Library.Serial

/-! Conversations under any interleaving of the chat operations: the appends of one run one after the other and number
its messages, and its record only grows. -/

namespace VivimOmega.Chat

open Library Library.Json Vault

section Relations

/-- The id that a call writes under at most once. -/
def freshId : ChatCall → String
  | .openChat mint _ _ => key (minted "conv" mint)
  | .append mint _ _ => key (minted "msg" mint)
  | .history mint _ _ => key (minted "refusal" mint)

/-- A conversation's row holds the conversation. -/
def Convs (s : Log) : Prop :=
  ∀ (k : Id "conv") (data : Value), row? s (key k.1) = some data → ∃ conv : ChatConversation, data = conv.value ∧ conv.id = k.1

structure Sane (s : Log) : Prop where
  holds : ∀ k, ∃ l, Holds s k l
  convs : Convs s

/-- Records grow at their end. -/
structure Grows (s t : Log) : Prop where
  convs : Convs s → Convs t
  holds : ∀ k l, Holds s k l → ∃ l', Holds t k l' ∧ l <+: l'
  there : ∀ id, row? s id ≠ none → row? t id ≠ none

/-- One row more: under the new id of the call, or the index of the conversation whose chain it has. -/
def Touches (d : ChatCall) (s t : Log) : Prop :=
  ∃ r : Revision, t = s ++ [r] ∧ r.ns = chatNs ∧
    ((r.id = freshId d ∧ row? s r.id = none ∧ ∀ k : Id "conv", chainOf d ≠ some k → (scan t k.1).Perm (scan s k.1)) ∨
      ∃ k, chainOf d = some k ∧ r.id = indexKey k)

def guarantee (d : ChatCall) (s t : Log) : Prop := t = s ∨ (Grows s t ∧ Touches d s t)

/-- What a call may rely on while others write. -/
structure Relies (c : ChatCall) (s t : Log) : Prop where
  grows : Grows s t
  fresh : row? s (freshId c) = none → row? t (freshId c) = none
  chain : ∀ k, chainOf c = some k → row? t (indexKey k) = row? s (indexKey k) ∧ (scan t k.1).Perm (scan s k.1)
  kept : ∀ id data, row? s id = some data → (∀ k, id ≠ indexKey k) → row? t id = some data

lemma Grows.refl (s : Log) : Grows s s := ⟨fun h => h, fun _ l h => ⟨l, h, List.prefix_rfl⟩, fun _ h => h⟩

lemma Grows.trans {s t u : Log} (hst : Grows s t) (htu : Grows t u) : Grows s u := by
  refine ⟨fun h => htu.convs (hst.convs h), fun k l h => ?_, fun id h => htu.there id (hst.there id h)⟩
  obtain ⟨l', h', hpre⟩ := hst.holds k l h
  obtain ⟨l'', h'', hpre'⟩ := htu.holds k l' h'
  exact ⟨l'', h'', hpre.trans hpre'⟩

lemma Sane.grows {s t : Log} (h : Sane s) (hst : Grows s t) : Sane t := by
  refine ⟨fun k => ?_, hst.convs h.convs⟩
  obtain ⟨l, hl⟩ := h.holds k
  obtain ⟨l', hl', _⟩ := hst.holds k l hl
  exact ⟨l', hl'⟩

lemma Relies.refl (c : ChatCall) (s : Log) : Relies c s s :=
  ⟨Grows.refl s, fun h => h, fun _ _ => ⟨rfl, List.Perm.refl _⟩, fun _ _ h _ => h⟩

lemma Relies.trans {c : ChatCall} {s t u : Log} (hst : Relies c s t) (htu : Relies c t u) : Relies c s u := by
  refine ⟨hst.grows.trans htu.grows, fun h => htu.fresh (hst.fresh h), fun k hk => ?_, fun id data h hid => ?_⟩
  · obtain ⟨hindex, hscan⟩ := hst.chain k hk
    obtain ⟨hindex', hscan'⟩ := htu.chain k hk
    exact ⟨hindex'.trans hindex, hscan'.trans hscan⟩
  · exact htu.kept id data (hst.kept id data h hid) hid

/-- The new id of a call is of another kind than an index. -/
lemma freshId_ne (c : ChatCall) (k : Id "conv") : freshId c ≠ indexKey k := by
  cases c with
  | openChat mint => exact key_ne (by decide) (by decide) (by decide) (isId_minted "conv" mint) (isId_indexText k)
  | append mint => exact key_ne (by decide) (by decide) (by decide) (isId_minted "msg" mint) (isId_indexText k)
  | history mint => exact key_ne (by decide) (by decide) (by decide) (isId_minted "refusal" mint) (isId_indexText k)

lemma guarantee_grows {d : ChatCall} {s t : Log} (h : guarantee d s t) : Grows s t := by
  obtain rfl | ⟨hgrows, _⟩ := h
  · exact Grows.refl _
  · exact hgrows

lemma fresh_kept {c d : ChatCall} {s t : Log} (hne : freshId c ≠ freshId d) (h : guarantee d s t)
    (hfresh : row? s (freshId c) = none) : row? t (freshId c) = none := by
  obtain rfl | ⟨_, r, rfl, _, hr⟩ := h
  · exact hfresh
  · have hid : r.id ≠ freshId c := by
      obtain ⟨hid, _⟩ | ⟨k, _, hid⟩ := hr
      · exact fun he => hne (he.symm.trans hid)
      · exact fun he => freshId_ne c k (he.symm.trans hid)
    rw [row?_append, if_neg fun h => hid h.2]
    exact hfresh

/-- A row that is no index stays as it is. -/
lemma row_kept {d : ChatCall} {s t : Log} (h : guarantee d s t) {id : String} {data : Value} (hrow : row? s id = some data)
    (hid : ∀ k, id ≠ indexKey k) : row? t id = some data := by
  obtain rfl | ⟨_, r, rfl, hns, ⟨_, hfresh, _⟩ | ⟨k', _, hindex⟩⟩ := h
  · exact hrow
  · have hother : r.id ≠ id := by
      rintro rfl
      rw [hfresh] at hrow
      cases hrow
    rw [row?_append, if_neg fun h => hother h.2]
    exact hrow
  · rw [row?_append, if_neg fun h => hid k' (h.2.symm.trans hindex)]
    exact hrow

/-- What a call of another conversation writes, the others can rely on. -/
lemma relies {c d : ChatCall} {s t : Log} (hne : freshId c ≠ freshId d) (hkey : chainOf c = none ∨ chainOf c ≠ chainOf d)
    (h : guarantee d s t) : Relies c s t := by
  refine ⟨guarantee_grows h, fresh_kept hne h, fun k hk => ?_, fun id data hrow hid => ?_⟩
  · have hother : chainOf d ≠ some k := by
      intro hd
      obtain hnone | hdiffer := hkey
      · rw [hnone] at hk
        cases hk
      · exact hdiffer (hk.trans hd.symm)
    obtain rfl | ⟨_, r, rfl, hns, ⟨hfresh, _, hscan⟩ | ⟨k', hk', hid⟩⟩ := h
    · exact ⟨rfl, List.Perm.refl _⟩
    · rw [row?_append, if_neg fun h => freshId_ne d k (hfresh ▸ h.2)]
      exact ⟨rfl, hscan k hother⟩
    · have hindex : r.id ≠ indexKey k := by
        intro he
        obtain rfl := indexKey_injective (hid.symm.trans he)
        exact hother hk'
      rw [row?_append, if_neg fun h => hindex h.2]
      exact ⟨rfl, scan_other s hns (hid ▸ not_listed (by decide) (isId_indexText k')) k.1⟩
  · exact row_kept h hrow hid

end Relations

section Rules

variable {α β : Type} {c : ChatCall} {s : Log} {P : α → Log → Prop} {P' : β → Log → Prop}

/-- A read is answered; what an append becomes is open. -/
def allowed (fault : Fault) (q : Request) : Prop := fault = .none ∨ q.isAppend = true

def Ends (P : α → Log → Prop) (r : Except String α) (t : Log) : Prop := ∀ a, r = .ok a → P a t

/-- A handler keeps to the discipline, and what it returns is as `P` says. -/
def Keeps (c : ChatCall) (P : α → Log → Prop) (x : Handler α) (s : Log) : Prop :=
  x.run.Safe port allowed (Relies c) (guarantee c) (Ends P) s

lemma keeps_pure {a : α} (h : P a s) : Keeps c P (pure a) s := fun b hb => by
  obtain rfl := Except.ok.inj hb
  exact h

lemma keeps_throw {e : String} : Keeps c P (throw e) s := fun _ hb => by cases hb

lemma keeps_bind {x : Handler α} {k : α → Handler β} (hx : Keeps c P x s) (hk : ∀ a t, P a t → Keeps c P' (k a) t) :
    Keeps c P' (x >>= k) s := by
  rw [Keeps, run_bind]
  refine Process.Safe.bind hx fun r t hr => ?_
  cases r with
  | error e => exact fun _ hb => by cases hb
  | ok a => exact hk a t (hr a rfl)

lemma keeps_mono {P'' : α → Log → Prop} {x : Handler α} (hx : Keeps c P x s) (h : ∀ a t, P a t → P'' a t) :
    Keeps c P'' x s :=
  Process.Safe.mono hx fun _ t hr a ha => h a t (hr a ha)

lemma keeps_lift {x : Except String α} {k : α → Handler β} (h : ∀ a, x = .ok a → Keeps c P' (k a) s) :
    Keeps c P' ((liftM x : Handler α) >>= k) s := by
  rw [Keeps, run_lift]
  cases x with
  | error e => exact fun _ hb => by cases hb
  | ok a => exact h a rfl

lemma answer_row (t : Log) (id : String) : match row? t id with
    | none => ∃ f, t.answer (.get chatNs id) = .error f
    | some data => ∃ got, t.answer (.get chatNs id) = .ok got ∧ got.data = data := by
  rw [row?, Log.answer, Log.got?]
  cases t.latest? chatNs id with
  | none => exact ⟨_, rfl⟩
  | some r => exact ⟨_, rfl, rfl⟩

/-- A get tells what the row holds when it is served. -/
lemma keeps_get {id : String} {k : Reply (.get chatNs id) → Handler β}
    (hnone : ∀ t f, Relies c s t → row? t id = none → Keeps c P' (k (.error f)) t)
    (hsome : ∀ t got, Relies c s t → row? t id = some got.data → Keeps c P' (k (.ok got)) t) :
    Keeps c P' (call (.get chatNs id) >>= k) s := by
  rw [Keeps, run_call]
  intro t ht fault hfault
  obtain rfl : fault = .none := hfault.resolve_right (by simp [Request.isAppend])
  refine ⟨Or.inl rfl, ?_⟩
  have hanswer := answer_row t id
  have hserve : (port.serve .none t (.get chatNs id)) = (t.answer (.get chatNs id), t) := rfl
  rw [hserve]
  cases hrow : row? t id with
  | none =>
    rw [hrow] at hanswer
    obtain ⟨f, hf⟩ := hanswer
    rw [hf]
    exact hnone t f ht hrow
  | some data =>
    rw [hrow] at hanswer
    obtain ⟨got, hgot, hdata⟩ := hanswer
    rw [hgot]
    exact hsome t got ht (hdata ▸ hrow)

/-- An append that fails may have been written or not. -/
lemma keeps_append {id : String} {data metaData : Value} {k : (Request.append chatNs id data metaData).Value → Handler β}
    (h : ∀ t, Relies c s t → guarantee c t (t ++ [⟨chatNs, id, data, metaData⟩]) ∧
      ∀ rev, Keeps c P' (k rev) (t ++ [⟨chatNs, id, data, metaData⟩])) :
    Keeps c P' (portCall (.append chatNs id data metaData) >>= k) s := by
  rw [Keeps, run_portCall]
  intro t ht fault _
  obtain ⟨hguar, hk⟩ := h t ht
  cases fault with
  | none => exact ⟨hguar, hk _⟩
  | refused f => exact ⟨Or.inl rfl, fun _ hb => by cases hb⟩
  | lost f => exact ⟨hguar, fun _ hb => by cases hb⟩

lemma keeps_query {p : Option String} {k : (Request.query chatNs p).Value → Handler β}
    (h : ∀ t (rows : List Listed), Relies c s t → rows.map Listed.id = t.selected chatNs p → Keeps c P' (k rows) t) :
    Keeps c P' (portCall (.query chatNs p) >>= k) s := by
  rw [Keeps, run_portCall]
  intro t ht fault hfault
  obtain rfl : fault = .none := hfault.resolve_right (by simp [Request.isAppend])
  refine ⟨Or.inl rfl, h t _ ht ?_⟩
  rw [List.map_map]
  exact List.map_id _

end Rules

section Reads

variable {c : ChatCall} {s : Log}

lemma conversation_of_row {s : Log} (hsane : Sane s) {k : Id "conv"} {data : Value} (h : row? s (key k.1) = some data)
    {conv : ChatConversation} (hconv : asChatConversation data = some conv) : data = conv.value ∧ conv.id = k.1 := by
  obtain ⟨conv', rfl, hid⟩ := hsane.convs k data h
  rw [asChatConversation_value] at hconv
  obtain rfl := Option.some.inj hconv
  exact ⟨rfl, hid⟩

lemma keeps_mustLoadConversation (hsane : Sane s) (k : Id "conv") : Keeps c (fun r t => Relies c s t ∧ r.1.id = k.1 ∧
    row? t (key k.1) = some r.1.value) (mustLoadConversation k.1) s := by
  rw [mustLoadConversation]
  refine keeps_get (fun t f _ _ => keeps_throw) fun t got ht hrow => ?_
  dsimp only
  cases hconv : asChatConversation got.data with
  | none => exact keeps_throw
  | some conv =>
    obtain ⟨hdata, hid⟩ := conversation_of_row (hsane.grows ht.grows) hrow hconv
    exact keeps_pure ⟨ht, hid, hdata ▸ hrow⟩

/-- What was read of the index row of a conversation. -/
def Read (k : Id "conv") (t : Log) : Option ChatIndex → Prop
  | none => row? t (indexKey k) = none
  | some i => ∃ data, row? t (indexKey k) = some data ∧ asChatIndex data = some i

lemma keeps_loadIndex (op : String) (k : Id "conv") :
    Keeps c (fun idx t => Relies c s t ∧ Read k t idx) (loadIndex op k.1) s := by
  rw [loadIndex]
  refine keeps_lift fun id hid => ?_
  obtain rfl := Except.ok.inj ((chatIndexId_id k).symm.trans hid)
  refine keeps_get (fun t f ht hrow => keeps_pure ⟨ht, hrow⟩) fun t got ht hrow => ?_
  dsimp only
  cases hindex : asChatIndex got.data with
  | none => exact keeps_throw
  | some i => exact keeps_pure ⟨ht, got.data, hrow, hindex⟩

/-- Rows that stay as they are are fetched as they were. -/
lemma keeps_fetch (conversationId : JsString) (ids : List String)
    (hids : ∀ id ∈ ids, row? s id ≠ none ∧ ∀ k, id ≠ indexKey k) :
    Keeps c (fun ms t => Relies c s t ∧ ms = ids.filterMap fun id => (row? s id).bind (messageOf conversationId))
      (fetch conversationId ids) s := by
  induction ids generalizing s with
  | nil => exact keeps_pure ⟨Relies.refl c s, rfl⟩
  | cons id rest ih =>
    obtain ⟨hthere, hother⟩ := hids id List.mem_cons_self
    obtain ⟨data, hdata⟩ := Option.ne_none_iff_exists'.mp hthere
    rw [fetch]
    refine keeps_get (fun t f ht hrow => ?_) fun t got ht hrow => ?_
    · rw [ht.kept id data hdata hother] at hrow
      cases hrow
    · have hgot : got.data = data := Option.some.inj (hrow.symm.trans (ht.kept id data hdata hother))
      have hrest : ∀ id ∈ rest, row? t id = row? s id := by
        intro id' hid'
        obtain ⟨hthere', hother'⟩ := hids id' (List.mem_cons_of_mem _ hid')
        obtain ⟨data', hdata'⟩ := Option.ne_none_iff_exists'.mp hthere'
        rw [hdata', ht.kept id' data' hdata' hother']
      refine keeps_bind (ih fun id' hid' => ?_) fun ms u hms => ?_
      · rw [hrest id' hid']
        exact hids id' (List.mem_cons_of_mem _ hid')
      · obtain ⟨hu, rfl⟩ := hms
        refine keeps_pure ⟨ht.trans hu, ?_⟩
        rw [List.filterMap_cons, hdata, Option.bind_some, hgot,
          List.filterMap_congr fun id' hid' => by rw [hrest id' hid']]
        cases messageOf conversationId data <;> rfl

/-- A scan finds the messages that are there when the ids are listed. -/
lemma keeps_scan (conversationId : JsString) : Keeps c (fun ms t => ∃ u, Relies c s u ∧ Relies c u t ∧
    ms = scan u conversationId) (loadConversationMessages conversationId) s := by
  rw [loadConversationMessages]
  refine keeps_query fun t rows ht hrows => ?_
  rw [hrows]
  refine keeps_mono (keeps_fetch conversationId _ fun id hid => ?_) fun ms u hms => ⟨t, ht, hms.1, hms.2⟩
  obtain ⟨hmem, hlisted⟩ := List.mem_filter.mp hid
  refine ⟨fun hnone => revisions_of_row?.mp hnone hmem, fun k he => ?_⟩
  rw [Option.all_some, ← listed, he, indexKey, not_listed (by decide) (isId_indexText k)] at hlisted
  cases hlisted

end Reads

section Writes

variable {s t : Log} {k : Id "conv"} {l : List ChatMessage}

/-- The holder of a chain finds the record as it left it. -/
lemma holds_same {c : ChatCall} (hchain : chainOf c = some k) (h : Holds s k l) (hst : Relies c s t) : Holds t k l := by
  obtain ⟨hindex, hscan⟩ := hst.chain k hchain
  obtain ⟨l', h', hpre⟩ := hst.grows.holds k l h
  have hlength : l.length = l'.length := by
    have hindexed := h.indexed
    have hindexed' := h'.indexed
    rw [hindex] at hindexed'
    cases hrow : row? s (indexKey k) with
    | none =>
      rw [hrow] at hindexed hindexed'
      have hperm : l.Perm l' := hindexed.symm.trans (hscan.symm.trans hindexed')
      exact hperm.length_eq
    | some data =>
      rw [hrow] at hindexed hindexed'
      obtain ⟨i, hi, _, hcount, _⟩ := hindexed
      obtain ⟨i', hi', _, hcount', _⟩ := hindexed'
      obtain rfl := Option.some.inj (hi.symm.trans hi')
      exact hcount.symm.trans hcount'
  rw [hpre.eq_of_length hlength]
  exact h'

lemma grows_row {r : Revision} (hconvs : ∀ k : Id "conv", r.id = key k.1 → ∃ conv : ChatConversation,
    r.data = conv.value ∧ conv.id = k.1) (hholds : ∀ k l, Holds s k l → ∃ l', Holds (s ++ [r]) k l' ∧ l <+: l') :
    Grows s (s ++ [r]) := by
  refine ⟨fun h k data hrow => ?_, hholds, fun id h => ?_⟩
  · rw [row?_append] at hrow
    split_ifs at hrow with hr
    · obtain ⟨conv, hdata, hid⟩ := hconvs k hr.2
      exact ⟨conv, (Option.some.inj hrow).symm.trans hdata, hid⟩
    · exact h k data hrow
  · rw [row?_append]
    split_ifs
    · exact Option.some_ne_none _
    · exact h

/-- The record when the message of an append is there and its index row is not. -/
def pending (idx : Option ChatIndex) (l : List ChatMessage) (m : ChatMessage) : List ChatMessage :=
  match idx with
  | some _ => l
  | none => l ++ [m]

lemma pending_prefix (idx : Option ChatIndex) (l : List ChatMessage) (m : ChatMessage) : pending idx l m <+: l ++ [m] := by
  cases idx with
  | none => exact List.prefix_rfl
  | some i => exact List.prefix_append _ _

lemma prefix_pending (idx : Option ChatIndex) (l : List ChatMessage) (m : ChatMessage) : l <+: pending idx l m := by
  cases idx with
  | none => exact List.prefix_append _ _
  | some i => exact List.prefix_rfl

/-- What an append has read of its conversation. -/
structure Known (k : Id "conv") (idx : Option ChatIndex) (prior l : List ChatMessage) (s : Log) : Prop where
  read : Read k s idx
  holds : Holds s k l
  scanned : idx = none → prior.Perm l

variable {idx : Option ChatIndex} {prior : List ChatMessage} {m : ChatMessage}

lemma read_same {c : ChatCall} (hchain : chainOf c = some k) (h : Read k s idx) (hst : Relies c s t) : Read k t idx := by
  cases idx with
  | none => exact (hst.chain k hchain).1.trans h
  | some i =>
    obtain ⟨data, hrow, hi⟩ := h
    exact ⟨data, (hst.chain k hchain).1.trans hrow, hi⟩

lemma Known.index (h : Known k idx prior l s) {i : ChatIndex} (hi : idx = some i) :
    i.count = l.length ∧ i.entries.Perm (l.map entryOf) := by
  have hread := h.read
  have hindexed := h.holds.indexed
  rw [hi] at hread
  obtain ⟨data, hrow, hdata⟩ := hread
  rw [hrow] at hindexed
  obtain ⟨i', hi', _, hcount, hperm⟩ := hindexed
  obtain rfl := Option.some.inj (hdata.symm.trans hi')
  exact ⟨hcount, hperm⟩

lemma Known.count (h : Known k idx prior l s) : priorCount idx prior = l.length := by
  cases hidx : idx with
  | none => exact (h.scanned hidx).length_eq
  | some i => exact (h.index hidx).1

/-- The next index row lists the record and the new message. -/
lemma Known.next (h : Known k idx prior l s) (conversationId : JsString) :
    (nextChatIndex conversationId idx prior (entryOf m)).entries.Perm ((l ++ [m]).map entryOf) := by
  rw [List.map_append, List.map_singleton]
  cases hidx : idx with
  | none => exact ((h.scanned hidx).map entryOf).append_right _
  | some i => exact (h.index hidx).2.append_right _

/-- The message of an append that is about to be written. -/
structure Next (k : Id "conv") (l : List ChatMessage) (m : ChatMessage) : Prop where
  id : isId "msg" m.id = true
  conversation : m.conversationId = k.1
  seq : m.seq.1 = l.length + 1
  room : l.length < historyCap

lemma holds_pending {r : Revision} (h : Known k idx prior l s) (hm : Next k l m) (hns : r.ns = chatNs)
    (hkey : r.id = key m.id) (hdata : r.data = m.value) (hfresh : row? s r.id = none) :
    Holds (s ++ [r]) k (pending idx l m) := by
  have hread := h.read
  cases hidx : idx with
  | none =>
    rw [hidx] at hread
    exact holds_scanned h.holds hns hm.id hkey hdata hfresh hm.conversation hread hm.seq hm.room
  | some i =>
    rw [hidx] at hread
    obtain ⟨data, hrow, _⟩ := hread
    exact holds_message h.holds hns hm.id hkey hdata hfresh (Or.inr (by rw [hrow]; exact Option.some_ne_none _))

lemma grows_message {r : Revision} (h : Known k idx prior l s) (hm : Next k l m) (hns : r.ns = chatNs)
    (hkey : r.id = key m.id) (hdata : r.data = m.value) (hfresh : row? s r.id = none) : Grows s (s ++ [r]) := by
  refine grows_row (fun k' hk' => ?_) fun k' l' hl' => ?_
  · exact absurd (hkey.symm.trans hk') (key_ne (by decide) (by decide) (by decide) hm.id k'.2)
  · by_cases hk : k' = k
    · subst hk
      obtain rfl := holds_unique hl' h.holds
      exact ⟨_, holds_pending h hm hns hkey hdata hfresh, prefix_pending _ _ _⟩
    · refine ⟨l', holds_message hl' hns hm.id hkey hdata hfresh (Or.inl fun he => hk ?_), List.prefix_rfl⟩
      exact Subtype.ext (he.symm.trans hm.conversation)

lemma asChatIndex_next (h : Known k idx prior l s) (hl : ∀ m ∈ l, isId "msg" m.id = true) (hm : Next k l m) :
    asChatIndex (nextChatIndex k.1 idx prior (entryOf m)).value = some (nextChatIndex k.1 idx prior (entryOf m)) ∧
      (nextChatIndex k.1 idx prior (entryOf m)).count = (l ++ [m]).length := by
  have hperm := h.next (m := m) k.1
  have hcount : (nextChatIndex k.1 idx prior (entryOf m)).count = (l ++ [m]).length := by
    have hself : (nextChatIndex k.1 idx prior (entryOf m)).count =
        (nextChatIndex k.1 idx prior (entryOf m)).entries.length := rfl
    rw [hself, hperm.length_eq, List.length_map]
  have hk := k.2
  simp only [isId, Bool.and_eq_true] at hk
  refine ⟨asChatIndex_value hk.1.1.1 rfl ?_ fun e he => ?_, hcount⟩
  · rw [hcount, List.length_append, List.length_singleton]
    exact hm.room
  · obtain ⟨m', hm', rfl⟩ := List.mem_map.mp (hperm.mem_iff.mp he)
    have hid : isId "msg" m'.id = true := by
      obtain hold | hnew := List.mem_append.mp hm'
      · exact hl m' hold
      · rw [List.mem_singleton.mp hnew]
        exact hm.id
    simp only [isId, Bool.and_eq_true] at hid
    exact ⟨hid.1.1.1, m'.seq.2⟩

/-- The index row of an append makes its message count, whatever was written elsewhere since. -/
lemma holds_written {s₀ : Log} {r : Revision} (h : Known k idx prior l s₀) (hm : Next k l m)
    (hpending : Holds s k (pending idx l m)) (hrow : row? s (key m.id) = some m.value) (hns : r.ns = chatNs)
    (hkey : r.id = indexKey k) (hdata : r.data = (nextChatIndex k.1 idx prior (entryOf m)).value) :
    Holds (s ++ [r]) k (l ++ [m]) := by
  obtain ⟨hread, hcount⟩ := asChatIndex_next h (fun m hm => (h.holds.stored m hm).1) hm
  refine holds_index (ordered_append h.holds.ordered hm.seq) ?_ (fun m' hm' => ?_) hns hkey (hdata ▸ hread) rfl hcount
    (h.next k.1)
  · rw [List.length_append, List.length_singleton]
    exact hm.room
  · obtain hold | hnew := List.mem_append.mp hm'
    · exact hpending.stored m' ((prefix_pending idx l m).subset hold)
    · rw [List.mem_singleton.mp hnew]
      exact ⟨hm.id, hm.conversation, hrow⟩

lemma grows_index {s₀ : Log} {r : Revision} (h : Known k idx prior l s₀) (hm : Next k l m)
    (hpending : Holds s k (pending idx l m)) (hrow : row? s (key m.id) = some m.value) (hns : r.ns = chatNs)
    (hkey : r.id = indexKey k) (hdata : r.data = (nextChatIndex k.1 idx prior (entryOf m)).value) : Grows s (s ++ [r]) := by
  refine grows_row (fun k' hk' => ?_) fun k' l' hl' => ?_
  · exact absurd (hk'.symm.trans hkey) (key_ne (by decide) (by decide) (by decide) k'.2 (isId_indexText k))
  · by_cases hk : k' = k
    · subst hk
      obtain rfl := holds_unique hl' hpending
      exact ⟨_, holds_written h hm hpending hrow hns hkey hdata, pending_prefix _ _ _⟩
    · refine ⟨l', holds_apart hl' hns (hkey ▸ not_listed (by decide) (isId_indexText k)) fun he => hk ?_, List.prefix_rfl⟩
      exact indexKey_injective (he.symm.trans hkey)

end Writes

section Results

variable {mint : Mint} {now : ℕ} {payload : Value} {input : AppendInput} {s : Log}

/-- The record holds the message of an append at the number that the append returned. -/
def Recorded (mint : Mint) (now : ℕ) (payload : Value) (a : Appended) (s : Log) : Prop :=
  ∃ input l, parseAppendInput payload = .ok input ∧ Holds s input.conversationId l ∧ 0 < a.seq ∧
    a.messageId = minted "msg" mint ∧
      l[a.seq - 1]? = some (appended mint now input input.conversationId.1 (a.seq - 1))

lemma chainOf_append (hinput : parseAppendInput payload = .ok input) :
    chainOf (.append mint now payload) = some input.conversationId := by
  rw [chainOf, hinput]
  rfl

lemma keeps_writeMessage (hinput : parseAppendInput payload = .ok input) {conv : ChatConversation}
    (hconv : conv.id = input.conversationId.1) {idx : Option ChatIndex} {prior l : List ChatMessage}
    (hknown : Known input.conversationId idx prior l s) (hfresh : row? s (freshId (.append mint now payload)) = none) :
    Keeps (.append mint now payload) (Recorded mint now payload) (writeMessage mint now input conv idx prior) s := by
  rw [writeMessage, hknown.count, hconv]
  by_cases hcap : l.length ≥ historyCap
  · rw [if_pos hcap]
    exact keeps_throw
  rw [if_neg hcap]
  have hchain : chainOf (.append mint now payload) = some input.conversationId := chainOf_append hinput
  have hnext : Next input.conversationId l (appended mint now input input.conversationId.1 l.length) :=
    ⟨isId_minted "msg" mint, rfl, rfl, Nat.not_le.mp hcap⟩
  refine keeps_lift fun id hid => ?_
  have hid' : id.1 = minted "msg" mint := by
    have hcheck := checkId_id "chatMessageId" (⟨minted "msg" mint, isId_minted "msg" mint⟩ : Id "msg")
    rw [chatMessageId, hcheck] at hid
    exact congrArg Subtype.val (Except.ok.inj hid).symm
  refine keeps_append fun t ht => ?_
  have hknown' : Known input.conversationId idx prior l t :=
    ⟨read_same hchain hknown.read ht, holds_same hchain hknown.holds ht, hknown.scanned⟩
  have hfresh' : row? t (key id.1) = none := by
    rw [hid']
    exact ht.fresh hfresh
  have hkey : key id.1 = key (appended mint now input input.conversationId.1 l.length).id := by
    rw [hid']
    rfl
  refine ⟨Or.inr ⟨grows_message hknown' hnext rfl hkey rfl hfresh', _, rfl, rfl,
    Or.inl ⟨by rw [hid']; rfl, hfresh', fun k hk => ?_⟩⟩, fun rev => ?_⟩
  · have hother : (appended mint now input input.conversationId.1 l.length).conversationId ≠ k.1 := by
      intro he
      exact hk (hchain.trans (congrArg some (Subtype.ext he)))
    have hscan := scan_message t (r := ⟨chatNs, key id.1, (appended mint now input input.conversationId.1 l.length).value,
      messageMeta (appended mint now input input.conversationId.1 l.length)⟩) rfl (hkey ▸ listed_message hnext.id) rfl
      hfresh' k.1
    rw [if_neg hother, List.append_nil] at hscan
    exact hscan
  · refine keeps_lift fun indexId hindexId => ?_
    obtain rfl := Except.ok.inj ((chatIndexId_id input.conversationId).symm.trans hindexId)
    refine keeps_append fun u hu => ?_
    have hpending := holds_same hchain (holds_pending hknown' hnext rfl hkey rfl hfresh') hu
    have hrow : row? u (key (appended mint now input input.conversationId.1 l.length).id) =
        some (appended mint now input input.conversationId.1 l.length).value := by
      refine hu.kept _ _ ?_ fun k => index_not_message k hnext.id
      rw [row?_append, if_pos ⟨rfl, hkey⟩]
    refine ⟨Or.inr ⟨grows_index hknown' hnext hpending hrow rfl rfl rfl, _, rfl, rfl, Or.inr ⟨_, hchain, rfl⟩⟩,
      fun _ => keeps_pure ⟨input, _, hinput, holds_written hknown' hnext hpending hrow rfl rfl rfl, Nat.succ_pos _, rfl, ?_⟩⟩
    have hseq : (appended mint now input input.conversationId.1 l.length).seq.1 - 1 = l.length := rfl
    rw [hseq, List.getElem?_concat_length]

end Results

end VivimOmega.Chat

import VivimOmega.Chat.Conversations

/-! Runs of the chat: whatever is under way at once, a conversation is one sequence of messages. -/

namespace VivimOmega.Chat

open Library Library.Json Vault

section Calls

variable {mint : Mint} {now : ℕ} {payload : Value} {s : Log}

lemma keeps_chatAppend (hsane : Sane s) (hfresh : row? s (freshId (.append mint now payload)) = none) :
    Keeps (.append mint now payload) (Recorded mint now payload) (chatAppend mint now payload) s := by
  rw [chatAppend]
  refine keeps_lift fun input hinput => ?_
  have hchain : chainOf (.append mint now payload) = some input.conversationId := chainOf_append hinput
  refine keeps_bind (keeps_mustLoadConversation hsane input.conversationId) fun r t ⟨ht, hid, _⟩ => ?_
  obtain ⟨conv, rev⟩ := r
  dsimp only at hid ⊢
  rw [hid]
  refine keeps_bind (keeps_loadIndex appendOp input.conversationId) fun idx u ⟨hu, hread⟩ => ?_
  obtain ⟨l, hl⟩ := (hsane.grows (ht.trans hu).grows).holds input.conversationId
  cases idx with
  | some i =>
    refine keeps_writeMessage hinput hid ⟨hread, hl, fun h => ?_⟩ ((ht.trans hu).fresh hfresh)
    cases h
  | none =>
    refine keeps_bind (keeps_scan input.conversationId.1) fun prior v ⟨w, hw, hv, hprior⟩ => ?_
    have hlater : Relies (.append mint now payload) u v := hw.trans hv
    have hread' := read_same hchain hread hlater
    have hl' := holds_same hchain hl hlater
    refine keeps_writeMessage hinput hid ⟨hread', hl', fun _ => ?_⟩ (((ht.trans hu).trans hlater).fresh hfresh)
    have hindexed := hl'.indexed
    rw [hread'] at hindexed
    rw [hprior]
    exact ((hv.chain _ hchain).2).symm.trans hindexed

/-- A history is the beginning of the record, for its owner or for nobody in particular. -/
def Told (payload : Value) (h : History) (s : Log) : Prop :=
  ∃ input l, parseHistoryInput payload = .ok input ∧ Holds s input.conversationId l ∧ h.total ≤ l.length ∧
    h.messages = (l.take h.total).take (input.limit.getD h.total) ∧ h.conversation.id = input.conversationId.1 ∧
      ∀ p, input.principal = some p → p.1 = h.conversation.principal.1

/-- A read is refused to another than the owner. -/
def Refused (payload : Value) (s : Log) : Prop :=
  ∃ input p, ∃ conv : ChatConversation, parseHistoryInput payload = .ok input ∧
    row? s (key input.conversationId.1) = some conv.value ∧ input.principal = some p ∧ p.1 ≠ conv.principal.1

def ToldOrRefused (payload : Value) : PrincipalRefusal ⊕ History → Log → Prop
  | .inl _ => Refused payload
  | .inr h => Told payload h

lemma grows_refusal {r : Revision} (hns : r.ns = chatNs) (hid : r.id = key (minted "refusal" mint)) :
    Grows s (s ++ [r]) := by
  refine grows_row (fun k hk => ?_) fun k l hl => ?_
  · exact absurd (hid.symm.trans hk) (key_ne (by decide) (by decide) (by decide) (isId_minted _ _) k.2)
  · refine ⟨l, holds_apart hl hns (hid ▸ not_listed (by decide) (isId_minted _ _)) fun he => ?_, List.prefix_rfl⟩
    exact key_ne (by decide) (by decide) (by decide) (isId_minted "refusal" mint) (isId_indexText k) (hid.symm.trans he)

lemma touches_other {d : ChatCall} {r : Revision} (hns : r.ns = chatNs) (hid : r.id = freshId d)
    (hlisted : listed r.id = false) (hfresh : row? s r.id = none) : Touches d s (s ++ [r]) :=
  ⟨r, rfl, hns, Or.inl ⟨hid, hfresh, fun k _ => scan_other s hns hlisted k.1⟩⟩

/-- The rows of a record, fetched in order, are the record. -/
lemma fetched_record {k : Id "conv"} {l : List ChatMessage} (h : Holds s k l) :
    ((l.map entryOf).map fun e => key e.id).filterMap (fun id => (row? s id).bind (messageOf k.1)) = l := by
  have hall : ∀ m ∈ l, (row? s (key m.id)).bind (messageOf k.1) = some m := by
    intro m hm
    obtain ⟨_, hconversation, hrow⟩ := h.stored m hm
    rw [hrow, Option.bind_some, messageOf, asChatMessage_value]
    simp [Option.filter, hconversation]
  rw [List.map_map, List.filterMap_map]
  exact (List.filterMap_congr hall).trans List.filterMap_some

lemma keeps_chatHistory (hsane : Sane s) (hfresh : row? s (freshId (.history mint now payload)) = none)
    (hindexed : ∀ input, parseHistoryInput payload = .ok input → row? s (indexKey input.conversationId) ≠ none) :
    Keeps (.history mint now payload) (ToldOrRefused payload) (chatHistory mint now payload) s := by
  rw [chatHistory]
  refine keeps_lift fun input hinput => ?_
  refine keeps_bind (keeps_mustLoadConversation hsane input.conversationId) fun r t ⟨ht, hid, hconv⟩ => ?_
  obtain ⟨conv, rev⟩ := r
  dsimp only at hid hconv ⊢
  cases hcaller : input.principal.filter fun p => p.1 ≠ conv.principal.1 with
  | some caller =>
    dsimp only
    obtain ⟨hprincipal, hother⟩ := Option.filter_eq_some_iff.mp hcaller
    refine keeps_append fun u hu => ?_
    have hnew : row? u (key (minted "refusal" mint)) = none := (ht.trans hu).fresh hfresh
    have hrow : row? u (key input.conversationId.1) = some conv.value :=
      hu.kept _ _ hconv fun k => key_ne (by decide) (by decide) (by decide) input.conversationId.2 (isId_indexText k)
    refine ⟨Or.inr ⟨grows_refusal rfl rfl, touches_other rfl rfl (not_listed (by decide) (isId_minted _ _)) hnew⟩, fun rev' => keeps_pure ?_⟩
    refine ⟨input, caller, conv, hinput, ?_, hprincipal, by simpa using hother⟩
    have hne : key (minted "refusal" mint) ≠ key input.conversationId.1 :=
      key_ne (by decide) (by decide) (by decide) (isId_minted "refusal" mint) input.conversationId.2
    rw [row?_append, if_neg fun h => hne h.2]
    exact hrow
  | none =>
    dsimp only
    have howner : ∀ p, input.principal = some p → p.1 = conv.principal.1 := by
      intro p hp
      rw [hp, Option.filter] at hcaller
      by_contra hne
      rw [if_pos (by simpa using hne)] at hcaller
      cases hcaller
    rw [hid]
    refine keeps_bind (keeps_loadIndex historyOp input.conversationId) fun idx u ⟨hu, hread⟩ => ?_
    obtain ⟨l, hl⟩ := (hsane.grows (ht.trans hu).grows).holds input.conversationId
    cases idx with
    | none => exact absurd hread ((ht.trans hu).grows.there _ (hindexed input hinput))
    | some i =>
      obtain ⟨data, hrow, hdata⟩ := hread
      have hentries := hl.indexed
      rw [hrow] at hentries
      obtain ⟨i', hi', hconversation, _, hperm⟩ := hentries
      obtain rfl := Option.some.inj (hdata.symm.trans hi')
      have hsorted := sorted_entries hperm hl.ordered
      dsimp only
      rw [fetchByIndex, hsorted, hconversation]
      refine keeps_bind (keeps_fetch _ _ fun id hmem => ?_) fun ms v ⟨hv, hms⟩ => keeps_pure ?_
      · obtain ⟨e, he, rfl⟩ := List.mem_map.mp hmem
        obtain ⟨m, hm, rfl⟩ := List.mem_map.mp he
        obtain ⟨hmid, _, hmrow⟩ := hl.stored m hm
        exact ⟨by rw [entryOf, hmrow]; exact Option.some_ne_none _, fun k => index_not_message k hmid⟩
      · rw [fetched_record hl] at hms
        obtain ⟨l', hl', rest, rfl⟩ := hv.grows.holds _ _ hl
        subst hms
        refine ⟨input, _, hinput, hl', by simp, ?_, hid, howner⟩
        rw [List.take_left']
        rfl

/-- The row of a conversation that was opened stays. -/
def Founded (payload : Value) (r : Opened) (s : Log) : Prop :=
  ∃ input, ∃ conv : ChatConversation, ∃ k : Id "conv", parseOpenInput payload = .ok input ∧ r.conversationId = k.1 ∧
    row? s (key k.1) = some conv.value ∧ conv.principal = input.principal ∧ conv.title = input.title

lemma keeps_chatOpen (hfresh : row? s (freshId (.openChat mint now payload)) = none) :
    Keeps (.openChat mint now payload) (Founded payload) (chatOpen mint now payload) s := by
  rw [chatOpen]
  refine keeps_lift fun input hinput => keeps_lift fun id hid => ?_
  have hid' : id = ⟨minted "conv" mint, isId_minted "conv" mint⟩ := by
    have hcheck := checkId_id "chatConversationId" (⟨minted "conv" mint, isId_minted "conv" mint⟩ : Id "conv")
    rw [chatConversationId, hcheck] at hid
    exact (Except.ok.inj hid).symm
  subst hid'
  refine keeps_append fun t ht => ?_
  have hnew : row? t (key (minted "conv" mint)) = none := ht.fresh hfresh
  have hlisted : listed (key (minted "conv" mint)) = false := not_listed (by decide) (isId_minted "conv" mint)
  refine ⟨Or.inr ⟨grows_row (fun k hk => ?_) fun k l hl => ?_, touches_other rfl rfl hlisted hnew⟩,
    fun rev => keeps_pure ?_⟩
  · have hsame : minted "conv" mint = k.1 := by
      have htext := congrArg ofText hk
      rwa [ofText_key (by decide) (isId_minted "conv" mint), ofText_key (by decide) k.2] at htext
    exact ⟨_, rfl, hsame⟩
  · refine ⟨l, holds_apart hl rfl hlisted fun he => ?_, List.prefix_rfl⟩
    exact key_ne (by decide) (by decide) (by decide) (isId_minted "conv" mint) (isId_indexText k) he
  · refine ⟨input, ⟨minted "conv" mint, input.principal, input.title, timeOf now⟩,
      ⟨minted "conv" mint, isId_minted "conv" mint⟩, hinput, rfl, ?_, rfl, rfl⟩
    rw [row?_append, if_pos ⟨rfl, rfl⟩]

end Calls

section Results

variable {s t : Log}

/-- What a call that is done has to show for it. -/
def result : ChatCall → Except String ChatResult → Log → Prop
  | _, .error _, _ => True
  | .openChat _ _ payload, .ok (.opened r), s => Founded payload r s
  | .append mint now payload, .ok (.appended a), s => Recorded mint now payload a s
  | .history _ _ payload, .ok (.history h), s => ToldOrRefused payload h s
  | _, _, _ => False

lemma recorded_kept {mint : Mint} {now : ℕ} {payload : Value} {a : Appended} (hst : Grows s t)
    (h : Recorded mint now payload a s) : Recorded mint now payload a t := by
  obtain ⟨input, l, hinput, hl, hpos, hid, hget⟩ := h
  obtain ⟨l', hl', rest, rfl⟩ := hst.holds _ l hl
  refine ⟨input, _, hinput, hl', hpos, hid, ?_⟩
  rw [List.getElem?_append_left (List.getElem?_eq_some_iff.mp hget).1]
  exact hget

lemma told_kept {payload : Value} {h : History} (hst : Grows s t) (ht : Told payload h s) : Told payload h t := by
  obtain ⟨input, l, hinput, hl, htotal, hmessages, hrest⟩ := ht
  obtain ⟨l', hl', rest, rfl⟩ := hst.holds _ l hl
  refine ⟨input, _, hinput, hl', htotal.trans (by simp), ?_, hrest⟩
  rw [List.take_append_of_le_length htotal]
  exact hmessages

lemma result_kept {c d : ChatCall} {r : Except String ChatResult} (hst : guarantee d s t) (h : result c r s) :
    result c r t := by
  have hconv : ∀ (k : Id "conv") (k' : Id "conv"), key k.1 ≠ indexKey k' := fun k k' =>
    key_ne (by decide) (by decide) (by decide) k.2 (isId_indexText k')
  cases r with
  | error e => cases c <;> trivial
  | ok r =>
    cases c with
    | openChat mint now payload =>
      cases r with
      | opened r =>
        obtain ⟨input, conv, k, hinput, hid, hrow, hrest⟩ := h
        exact ⟨input, conv, k, hinput, hid, row_kept hst hrow (hconv k), hrest⟩
      | _ => cases h
    | append mint now payload =>
      cases r with
      | appended a => exact recorded_kept (guarantee_grows hst) h
      | _ => cases h
    | history mint now payload =>
      cases r with
      | history r =>
        cases r with
        | inl refusal =>
          obtain ⟨input, p, conv, hinput, hrow, hrest⟩ := h
          exact ⟨input, p, conv, hinput, row_kept hst hrow (hconv input.conversationId), hrest⟩
        | inr told => exact told_kept (guarantee_grows hst) h
      | _ => cases h

/-- A call may start: its id is new, and a conversation that is read has its index row. -/
structure Ready (c : ChatCall) (s : Log) : Prop where
  fresh : row? s (freshId c) = none
  indexed : ∀ mint now payload input, c = .history mint now payload → parseHistoryInput payload = .ok input →
    row? s (indexKey input.conversationId) ≠ none

lemma keeps_handle {c : ChatCall} (hsane : Sane s) (hready : Ready c s) :
    (handle c).Safe port allowed (Relies c) (guarantee c) (result c) s := by
  have hrun : ∀ {α : Type} {P : α → Log → Prop} {x : Handler α} (f : α → ChatResult), Keeps c P x s →
      (∀ a t, P a t → result c (.ok (f a)) t) →
        (x.run.bind fun r => Process.done (r.map f)).Safe port allowed (Relies c) (guarantee c) (result c) s := by
    intro α P x f hx hresult
    refine Process.Safe.bind hx fun r t hr => ?_
    cases r with
    | error e => cases c <;> trivial
    | ok a => exact hresult a t (hr a rfl)
  cases c with
  | openChat mint now payload => exact hrun _ (keeps_chatOpen hready.fresh) fun _ _ h => h
  | append mint now payload => exact hrun _ (keeps_chatAppend hsane hready.fresh) fun _ _ h => h
  | history mint now payload =>
    exact hrun _ (keeps_chatHistory hsane hready.fresh fun input => hready.indexed mint now payload input rfl)
      fun _ _ h => h

end Results

section Runs

/-- Calls of the chat that draw distinct ids, over a vault that answers reads. -/
def discipline : Pool.Discipline port handle chainOf where
  allowed := allowed
  together c d := freshId c ≠ freshId d
  rely := Relies
  guar := guarantee
  ready c s := Sane s ∧ Ready c s
  result := result
  refl := Relies.refl
  trans _ _ _ _ := Relies.trans
  symm _ _ h := h.symm
  relies _ _ _ _ hne hkey h := relies hne hkey h
  ready_kept _ _ _ _ hne h hready := ⟨hready.1.grows (guarantee_grows h), fresh_kept hne h hready.2.fresh,
    fun mint now payload input hc hinput => (guarantee_grows h).there _ (hready.2.indexed mint now payload input hc hinput)⟩
  result_kept _ _ _ _ _ _ h hresult := result_kept h hresult
  safe _ _ hready := keeps_handle hready.1 hready.2

abbrev Chats := Pool Request Reply (Except String ChatResult) Log Fault ChatCall

/-- The chat over a vault in which it has not written yet. -/
def chats : System Chats (PoolEvent Fault ChatCall) := Pool.serial port handle chainOf fun s => ∀ r ∈ s, r.ns ≠ chatNs

/-- No id is drawn twice, histories are asked of conversations that have an index row, and the vault answers reads. Appends
may fail in any way. -/
def Fair (s : Chats) : PoolEvent Fault ChatCall → Prop
  | .call c => Ready c s.store ∧ ∀ x ∈ s.tasks, freshId x.1 ≠ freshId c
  | .serve n fault => ∀ c q next, s.tasks[n]? = some (c, .ask q next) → allowed fault q

lemma admits_of_fair {s : Chats} {e : PoolEvent Fault ChatCall} (hsane : Sane s.store) (h : Fair s e) :
    discipline.Admits s e := by
  cases e with
  | call c => exact ⟨⟨hsane, h.1⟩, h.2⟩
  | serve n fault => exact h

lemma sane_of_fair {s : Chats} (h : chats.Reachable Fair s) : Sane s.store ∧ discipline.Sound s := by
  suffices hh : Sane s.store ∧ chats.Reachable discipline.Admits s from ⟨hh.1, discipline.sound hh.2⟩
  induction h with
  | start hinit =>
    refine ⟨⟨fun k => ⟨[], holds_nil hinit.1 k⟩, fun k data hrow => ?_⟩, .start hinit⟩
    have hempty : ∀ id, row? _ id = none := fun id => row?_of_empty hinit.1 id
    rw [hempty] at hrow
    cases hrow
  | @next s e t hs hfair hstep ih =>
    obtain ⟨hsane, hreach⟩ := ih
    have hadmits := admits_of_fair hsane hfair
    refine ⟨?_, .next hreach hadmits hstep⟩
    obtain hsame | ⟨c, hguar⟩ := discipline.sound_step (discipline.sound hreach) hadmits hstep
    · rw [hsame]
      exact hsane
    · exact hsane.grows (guarantee_grows hguar)

/-- An append that is done. -/
def appendOf (s : Chats) (n : ℕ) : Option (Mint × ℕ × Value × Appended) :=
  match s.tasks[n]? with
  | some (.append mint now payload, .done (.ok (.appended a))) => some (mint, now, payload, a)
  | _ => none

lemma task_of_appendOf {s : Chats} {n : ℕ} {mint : Mint} {now : ℕ} {payload : Value} {a : Appended}
    (h : appendOf s n = some (mint, now, payload, a)) :
    s.tasks[n]? = some (.append mint now payload, .done (.ok (.appended a))) := by
  rw [appendOf] at h
  split at h
  · rename_i heq
    obtain ⟨rfl, rfl, rfl, rfl⟩ := by simpa using h
    exact heq
  · cases h

/-- A history that is done. -/
def historyOf (s : Chats) (n : ℕ) : Option (Value × (PrincipalRefusal ⊕ History)) :=
  match s.tasks[n]? with
  | some (.history _ _ payload, .done (.ok (.history h))) => some (payload, h)
  | _ => none

variable {s t : Chats}

end Runs

section Talk

def fairly (s : Chats) : PoolEvent Fault ChatCall → Bool
  | .call c => (row? s.store (freshId c)).isNone && s.tasks.all (fun x => decide (freshId x.1 ≠ freshId c)) &&
    match c with
    | .history _ _ payload =>
      match parseHistoryInput payload with
      | .ok input => (row? s.store (indexKey input.conversationId)).isSome
      | .error _ => true
    | _ => true
  | .serve n fault =>
    match s.tasks[n]? with
    | some (_, .ask q _) => fault = .none || q.isAppend
    | _ => true

lemma fair_of_fairly {s : Chats} {e : PoolEvent Fault ChatCall} (h : fairly s e = true) : Fair s e := by
  cases e with
  | call c =>
    simp only [fairly, Bool.and_eq_true] at h
    obtain ⟨⟨hfresh, hothers⟩, hindexed⟩ := h
    refine ⟨⟨by simpa using hfresh, ?_⟩, fun x hx => by simpa using List.all_eq_true.mp hothers x hx⟩
    rintro mint now payload input rfl hinput
    simp only [hinput] at hindexed
    exact Option.isSome_iff_ne_none.mp hindexed
  | serve n fault =>
    intro c q next htask
    simp only [fairly, htask, Bool.or_eq_true, decide_eq_true_eq] at h
    exact h

def mintOf (u : UInt16) (h : isHexUnit u = true) : Mint :=
  ⟨List.replicate 16 u, List.length_replicate, by simp [h]⟩

def ada : Mint := mintOf 97 (by decide)

def hello : ChatCall := .append (mintOf 98 (by decide)) 1 (.object [(ofText "conversationId", .string (minted "conv" ada)),
  (ofText "role", jsText "user"), (ofText "content", jsText "hello")])

def reply : ChatCall := .append (mintOf 99 (by decide)) 2 (.object [(ofText "conversationId", .string (minted "conv" ada)),
  (ofText "role", jsText "assistant"), (ofText "content", jsText "hi")])

/-- Both appends are called before either is served. -/
def talk : List (PoolEvent Fault ChatCall) :=
  [.call (.openChat ada 0 (.object [(ofText "principal", jsText "user:ada")])), .serve 0 .none, .call hello, .call reply,
    .serve 1 .none, .serve 1 .none, .serve 1 .none, .serve 1 .none, .serve 1 .none,
    .serve 2 .none, .serve 2 .none, .serve 2 .none, .serve 2 .none,
    .call (.history (mintOf 100 (by decide)) 3 (.object [(ofText "conversationId", .string (minted "conv" ada))])),
    .serve 3 .none, .serve 3 .none, .serve 3 .none, .serve 3 .none]

def seqOf (s : Chats) (n : ℕ) : Option ℕ := (appendOf s n).map fun x => x.2.2.2.seq

def toldOf (s : Chats) (n : ℕ) : Option (List ℕ) :=
  (historyOf s n).bind fun x => match x.2 with
    | .inl _ => none
    | .inr h => some (h.messages.map fun m => m.seq.1)

lemma talk_run : ∃ s, chats.Reachable Fair s ∧ seqOf s 1 = some 1 ∧ seqOf s 2 = some 2 ∧ toldOf s 3 = some [1, 2] := by
  have hinit : chats.init { store := [], tasks := [], history := [] } := ⟨by simp, rfl, rfl⟩
  have hrun : (chats.exec (fun s e => fairly s e = true) { store := [], tasks := [], history := [] } talk).map (fun s =>
      decide (seqOf s 1 = some 1 ∧ seqOf s 2 = some 2 ∧ toldOf s 3 = some [1, 2])) = some true := by
    decide +kernel
  obtain ⟨s, hs, hf⟩ := System.exec_spec hinit hrun
  exact ⟨s, hs.mono fun _ _ => fair_of_fairly, of_decide_eq_true hf⟩

end Talk

end VivimOmega.Chat

import VivimOmega.Contracts.Parser
import VivimOmega.Library.Collect
import VivimOmega.Library.Json.Canonical
import VivimOmega.Library.Json.Reading
import VivimOmega.Library.Text

/-! The import of recorded exports: conversations and their messages, read by one parser for each source. -/

namespace VivimOmega.Chat

open Library Library.Json Contracts

section Reading

def toRat : Number → Option ℚ
  | .nan => none
  | .infinity _ => none
  | .zero => some 0
  | .finite negative d =>
    let e := d.point - d.digits.length
    let magnitude : ℚ := digitsValue d.digits * 10 ^ e.toNat / 10 ^ (-e).toNat
    some (if negative then -magnitude else magnitude)

def isObj : Value → Bool
  | .object _ => true
  | _ => false

/-- `isObj(v) ? v : {}`. -/
def objectOr (v : Value) : Value := if isObj v then v else .object []

def textOr (v : Value) (fallback : JsString) : JsString :=
  match v with
  | .string s => s
  | _ => fallback

structure ResolvedTs where
  ts : ℤ
  estimated : Bool

/-- A date text is read by the engine. -/
def resolveTs (dateOf : JsString → Option ℤ) : Value → ResolvedTs
  | .number n =>
    match toRat n with
    | some q => ⟨⌊q⌋, false⟩
    | none => ⟨0, true⟩
  | .string (u :: rest) =>
    match dateOf (u :: rest) with
    | some t => ⟨t, false⟩
    | none => ⟨0, true⟩
  | _ => ⟨0, true⟩

inductive Role
  | user | assistant | system
  deriving DecidableEq

def roleOf (v : Value) : Role :=
  match v with
  | .string s => if s = ofText "assistant" then .assistant else if s = ofText "system" then .system else .user
  | _ => .user

end Reading

section Rows

inductive ImportSource
  | chatgpt | claude | gemini
  deriving DecidableEq

def ImportSource.name : ImportSource → String
  | .chatgpt => "chatgpt"
  | .claude => "claude"
  | .gemini => "gemini"

structure ImportConversation where
  source : ImportSource
  externalId : JsString
  title : JsString
  createdAt : ℤ
  updatedAt : ℤ
  messageCount : ℕ
  deriving DecidableEq

structure ImportMessage where
  source : ImportSource
  conversationExternalId : JsString
  externalId : JsString
  role : Role
  content : JsString
  model : Option JsString := none
  ts : ℤ
  tsEstimated : Bool
  deriving DecidableEq

inductive ImportChunkData
  | conversation (c : ImportConversation)
  | message (m : ImportMessage)
  | done (source : ImportSource) (conversations : ℕ)
  deriving DecidableEq

/-- A conversation of an export, as it is parsed. -/
structure Imported where
  conversation : ImportConversation
  messages : List ImportMessage

def Imported.rows (i : Imported) : List (ParsedChunk ImportChunkData) :=
  ⟨.conversation i.conversation, false⟩ :: i.messages.map fun m => ⟨.message m, false⟩

end Rows

section Parsers

variable (dateOf : JsString → Option ℤ)

def numberText (n : ℤ) : JsString := ofText (String.ofList (Number.ofInt n).text)

/-- A template `${prefix}_${i}`. -/
def indexed (stem : JsString) (i : ℕ) : JsString := stem ++ ofText "_" ++ ofText (toString i)

def chatgptMessage (externalId : JsString) (entry : JsString × Value) : Option ImportMessage :=
  let message := optionalProperty entry.2 "message"
  if isObj entry.2 && isObj message then
    let author := objectOr (optionalProperty message "author")
    let content := objectOr (optionalProperty message "content")
    let parts := (arrayOf (optionalProperty content "parts")).getD []
    let ts := resolveTs dateOf (optionalProperty message "create_time")
    some
      { source := .chatgpt
        conversationExternalId := externalId
        externalId := textOr (optionalProperty message "id") entry.1
        role := roleOf (optionalProperty author "role")
        content := (ofText "\n").intercalate (parts.filterMap textOf)
        model := textOf (optionalProperty message "model")
        ts := ts.ts
        tsEstimated := ts.estimated }
  else none

/-- The order that the comparator of the sort makes: a later message goes ahead only where it is smaller. -/
def Follows (a b : ImportMessage) : Prop := a.ts < b.ts ∨ a.ts = b.ts ∧ keyLe a.externalId b.externalId

instance followsDecidable (a b : ImportMessage) : Decidable (Follows a b) :=
  inferInstanceAs (Decidable (a.ts < b.ts ∨ a.ts = b.ts ∧ keyLe a.externalId b.externalId))

def chatgptConversation (ci : ℕ) (conv : Value) : Except String Imported :=
  let mapping := optionalProperty conv "mapping"
  if isObj conv && isObj mapping then
    let title := textOr (optionalProperty conv "title") []
    let create := resolveTs dateOf (optionalProperty conv "create_time")
    let update := resolveTs dateOf (match optionalProperty conv "update_time" with
      | .undefined => optionalProperty conv "create_time"
      | .null => optionalProperty conv "create_time"
      | v => v)
    let externalId := title ++ ofText "_" ++ numberText create.ts
    let parsed := ((entries mapping).filterMap (chatgptMessage dateOf externalId)).insertionSort Follows
    return ⟨⟨.chatgpt, externalId, title, create.ts, update.ts, parsed.length⟩, parsed⟩
  else throw ("vivim-chat import parser (chatgpt): conversations[" ++ toString ci ++
    "] must be an object with a mapping record")

def claudeText (m : Value) : JsString :=
  match optionalProperty m "text", optionalProperty m "content" with
  | .string text, _ => text
  | _, .array content =>
    (ofText "\n").intercalate (content.map fun c => if isObj c then textOr (optionalProperty c "text") [] else [])
  | _, .string content => content
  | _, _ => []

def claudeMessage (uuid : JsString) (m : Value × ℕ) : Except String ImportMessage :=
  if isObj m.1 then
    let sender := optionalProperty m.1 "sender"
    let ts := resolveTs dateOf (optionalProperty m.1 "created_at")
    .ok
      { source := .claude
        conversationExternalId := uuid
        externalId := indexed uuid m.2
        role := roleOf (if textOf sender = some (ofText "human") then .string (ofText "user") else sender)
        content := claudeText m.1
        ts := ts.ts
        tsEstimated := ts.estimated }
  else throw ("vivim-chat import parser (claude): chat_messages[" ++ toString m.2 ++ "] must be an object")

def claudeConversation (ci : ℕ) (conv : Value) : Except String Imported :=
  match isObj conv, optionalProperty conv "chat_messages" with
  | true, .array chatMessages => do
    let uuid := textOr (optionalProperty conv "uuid") (indexed (ofText "conv") ci)
    let create := resolveTs dateOf (optionalProperty conv "created_at")
    let update := match optionalProperty conv "updated_at" with
      | .undefined => create
      | v => resolveTs dateOf v
    let messages ← chatMessages.zipIdx.mapM (claudeMessage dateOf uuid)
    return ⟨⟨.claude, uuid, textOr (optionalProperty conv "name") [], create.ts, update.ts, messages.length⟩, messages⟩
  | _, _ => throw ("vivim-chat import parser (claude): conversations[" ++ toString ci ++
    "] must be an object with chat_messages")

def geminiMessage (id : JsString) (m : Value × ℕ) : Except String ImportMessage :=
  if isObj m.1 then
    let ts := resolveTs dateOf (optionalProperty m.1 "timestamp")
    .ok
      { source := .gemini
        conversationExternalId := id
        externalId := indexed id m.2
        role := if textOf (optionalProperty m.1 "author") = some (ofText "model") then .assistant else .user
        content := textOr (optionalProperty m.1 "content") []
        ts := ts.ts
        tsEstimated := ts.estimated }
  else throw ("vivim-chat import parser (gemini): messages[" ++ toString m.2 ++ "] must be an object")

def geminiConversation (ci : ℕ) (conv : Value) : Except String Imported :=
  match isObj conv, optionalProperty conv "messages" with
  | true, .array inputs => do
    let id := textOr (optionalProperty conv "id") (indexed (ofText "conv") ci)
    let messages ← inputs.zipIdx.mapM (geminiMessage dateOf id)
    let firstTs := ((messages.find? fun m => !m.tsEstimated).map ImportMessage.ts).getD 0
    return ⟨⟨.gemini, id, textOr (optionalProperty conv "title") [], firstTs, firstTs, messages.length⟩, messages⟩
  | _, _ => throw ("vivim-chat import parser (gemini): conversations[" ++ toString ci ++
    "] must be an object with messages")

/-- The loop that the three parsers share. -/
def parseExport (source : ImportSource) (conversation : ℕ → Value → Except String Imported) (raw : Value) :
    Except String (List (ParsedChunk ImportChunkData)) :=
  match raw with
  | .array convs => do
    let imported ← convs.zipIdx.mapM fun c => conversation c.2 c.1
    return imported.flatMap Imported.rows
  | _ => throw ("vivim-chat import parser (" ++ source.name ++ "): export must be a JSON array of conversations")

def parseChatgptExport := parseExport .chatgpt (chatgptConversation dateOf)

def parseClaudeExport := parseExport .claude (claudeConversation dateOf)

def parseGeminiExport := parseExport .gemini (geminiConversation dateOf)

def transforms : ImportSource → Value → Except String (List (ParsedChunk ImportChunkData))
  | .chatgpt => parseChatgptExport dateOf
  | .claude => parseClaudeExport dateOf
  | .gemini => parseGeminiExport dateOf

def countConversations (rows : List (ParsedChunk ImportChunkData)) : ℕ :=
  (rows.filter fun r => match r.data with | .conversation _ => true | _ => false).length

/-- The words of a `SyntaxError` are the engine's. -/
def transform (syntaxError : JsString → String) (source : ImportSource) (exportText : JsString) :
    Except String (List (ParsedChunk ImportChunkData)) :=
  if exportText = [] then
    throw ("vivim-chat import parser (" ++ source.name ++ "): export text must be a non-empty string")
  else
    match parse (wellFormed exportText) with
    | none => throw ("vivim-chat import parser (" ++ source.name ++ "): export text is not valid JSON: " ++
        syntaxError exportText)
    | some raw => do
      let rows ← transforms dateOf source raw
      match rows.getLast? with
      | none => throw ("vivim-chat import parser (" ++ source.name ++
          "): export parsed to zero rows (an import must carry at least one conversation)")
      | some last =>
        if last.final then throw "vivim-chat import parser: internal law break (final row before terminator)"
        else return rows ++ [⟨.done source (countConversations rows), true⟩]

end Parsers

section Ids

lemma mem_units {c : Char} (h : (95 : UInt16) ∈ units c) : c = '_' := by
  unfold units at h
  split_ifs at h with hc
  · have hcode := congrArg UInt16.toNat (List.mem_singleton.mp h)
    rw [UInt16.toNat_ofNat', Nat.mod_eq_of_lt (by omega)] at hcode
    exact Char.toNat_inj.mp hcode.symm
  · have hvalid : c.toNat < 0xD800 ∨ (0xDFFF < c.toNat ∧ c.toNat < 0x110000) := c.valid
    obtain hcode | hcode := List.mem_pair.mp h
    · have hcode := congrArg UInt16.toNat hcode
      rw [UInt16.toNat_ofNat', Nat.mod_eq_of_lt (by omega)] at hcode
      change 95 = _ at hcode
      omega
    · have hcode := congrArg UInt16.toNat hcode
      rw [UInt16.toNat_ofNat', Nat.mod_eq_of_lt (by omega)] at hcode
      change 95 = _ at hcode
      omega

lemma digitText_plain {ds : List (Fin 10)} : '_' ∉ digitText ds := by
  intro h
  obtain ⟨d, _, hd⟩ := List.mem_map.mp h
  have hdigit := isDigit_digitChar d
  rw [hd] at hdigit
  exact absurd hdigit (by decide)

lemma number_text_plain {n : Number} (hn : n.IsFinite) : '_' ∉ n.text := by
  cases n with
  | nan => exact hn.elim
  | infinity negative => exact hn.elim
  | zero => decide
  | finite negative d =>
    have hsign : '_' ∉ signText negative := by cases negative <;> decide
    have hfraction : '_' ∉ fractionText d.parts.2.1 := by
      unfold fractionText
      split_ifs
      · exact List.not_mem_nil
      · simp [digitText_plain]
    have hexponent : '_' ∉ exponentText d.parts.2.2 := by
      cases d.parts.2.2 with
      | none => exact List.not_mem_nil
      | some e =>
        simp only [exponentText, List.mem_cons, not_or]
        refine ⟨by decide, ?_, Nat.underscore_not_in_toDigits⟩
        split_ifs <;> decide
    simp only [Number.text, Decimal.text, List.mem_append, not_or]
    exact ⟨hsign, ⟨digitText_plain, hfraction⟩, hexponent⟩

lemma numberText_plain (n : ℤ) : (95 : UInt16) ∉ numberText n := by
  intro h
  obtain ⟨c, hc, hunit⟩ := List.mem_flatMap.mp h
  rw [String.toList_ofList] at hc
  exact number_text_plain (isFinite_ofInt n) (mem_units hunit ▸ hc)

lemma numberText_injective : Function.Injective numberText := by
  intro m n h
  have htext : (Number.ofInt m).text = (Number.ofInt n).text := String.ofList_injective (ofText_injective h)
  have hends : EndsNumber [] := nofun
  have hm := parseNumber_text (isFinite_ofInt m) hends
  have hn := parseNumber_text (isFinite_ofInt n) hends
  rw [htext, hn] at hm
  have hsame : Number.ofInt n = Number.ofInt m := congrArg Prod.fst (Option.some.inj hm)
  have hint := congrArg Number.toInt? hsame
  rw [toInt?_ofInt, toInt?_ofInt] at hint
  exact (Option.some.inj hint).symm

/-- The last separator splits. -/
lemma separated_injective {α : Type} [DecidableEq α] {x : α} {a b s t : List α} (hs : x ∉ s) (ht : x ∉ t) (h : a ++ x :: s = b ++ x :: t) :
    a = b ∧ s = t := by
  have hlast : ∀ c u : List α, x ∉ u → (c ++ x :: u).reverse.takeWhile (fun y => decide (y ≠ x)) = u.reverse := by
    intro c u hu
    have hall : ∀ y ∈ u.reverse, decide (y ≠ x) = true := fun y hy =>
      decide_eq_true fun heq => hu (heq ▸ List.mem_reverse.mp hy)
    rw [List.reverse_append, List.reverse_cons, List.append_assoc, List.takeWhile_append_of_pos hall]
    simp
  have hst : s = t := List.reverse_injective (by rw [← hlast a s hs, h, hlast b t ht])
  rw [hst] at h
  exact ⟨List.append_cancel_right h, hst⟩

lemma indexed_injective (stem : JsString) : Function.Injective (indexed stem) := by
  intro i j h
  exact Text.repr_injective (ofText_injective (List.append_cancel_left h))

end Ids

section Law

variable {dateOf : JsString → Option ℤ} {syntaxError : JsString → String} {source : ImportSource} {exportText : JsString}
  {rows : List (ParsedChunk ImportChunkData)}

def conversationOf (dateOf : JsString → Option ℤ) : ImportSource → ℕ → Value → Except String Imported
  | .chatgpt => chatgptConversation dateOf
  | .claude => claudeConversation dateOf
  | .gemini => geminiConversation dateOf

/-- What tells the conversations of an export apart. -/
def conversationKey (dateOf : JsString → Option ℤ) (source : ImportSource) (c : Value × ℕ) : JsString × ℤ :=
  match source with
  | .chatgpt => (textOr (optionalProperty c.1 "title") [], (resolveTs dateOf (optionalProperty c.1 "create_time")).ts)
  | .claude => (textOr (optionalProperty c.1 "uuid") (indexed (ofText "conv") c.2), 0)
  | .gemini => (textOr (optionalProperty c.1 "id") (indexed (ofText "conv") c.2), 0)

/-- The messages of a conversation and where they stand: those of chatgpt by their time, the others as they came. -/
def Placed (dateOf : JsString → Option ℤ) (source : ImportSource) (conv : Value) (i : Imported) : Prop :=
  match source with
  | .chatgpt =>
    i.messages.Perm ((entries (optionalProperty conv "mapping")).filterMap
      (chatgptMessage dateOf i.conversation.externalId)) ∧
        ∀ a ∈ i.messages, ∀ b ∈ i.messages, a.ts < b.ts → [a, b].Sublist i.messages
  | .claude =>
    (i.messages.map ImportMessage.externalId).Nodup ∧
      ∃ inputs, optionalProperty conv "chat_messages" = .array inputs ∧
        List.Forall₂ (fun m row => claudeMessage dateOf i.conversation.externalId m = .ok row) inputs.zipIdx i.messages
  | .gemini =>
    (i.messages.map ImportMessage.externalId).Nodup ∧
      ∃ inputs, optionalProperty conv "messages" = .array inputs ∧
        List.Forall₂ (fun m row => geminiMessage dateOf i.conversation.externalId m = .ok row) inputs.zipIdx i.messages

structure Attributable (dateOf : JsString → Option ℤ) (source : ImportSource) (c : Value × ℕ) (i : Imported) : Prop where
  read : conversationOf dateOf source c.2 c.1 = .ok i
  counted : i.conversation.messageCount = i.messages.length
  named : ∀ m ∈ i.messages, m.conversationExternalId = i.conversation.externalId
  placed : Placed dateOf source c.1 i

instance followsTotal : Std.Total Follows where
  total a b := by
    obtain hlt | heq | hgt := lt_trichotomy a.ts b.ts
    · exact .inl (.inl hlt)
    · obtain hle | hge := le_total (a.externalId.map UInt16.toNat) (b.externalId.map UInt16.toNat)
      · exact .inl (.inr ⟨heq, hle⟩)
      · exact .inr (.inr ⟨heq.symm, hge⟩)
    · exact .inr (.inl hgt)

instance followsTrans : IsTrans ImportMessage Follows where
  trans a b c hab hbc := by
    obtain hab | ⟨hab, hid⟩ := hab
    · obtain hbc | ⟨hbc, _⟩ := hbc
      · exact .inl (hab.trans hbc)
      · exact .inl (hbc ▸ hab)
    · obtain hbc | ⟨hbc, hid'⟩ := hbc
      · exact .inl (hab ▸ hbc)
      · exact .inr ⟨hab.trans hbc, le_trans hid hid'⟩

/-- In a sorted list the earlier of two messages stands first. -/
lemma pair_sublist {ms : List ImportMessage} (h : ms.Pairwise Follows) {a b : ImportMessage} (ha : a ∈ ms) (hb : b ∈ ms)
    (hlt : a.ts < b.ts) : [a, b].Sublist ms := by
  induction ms with
  | nil => cases ha
  | cons m rest ih =>
    obtain ⟨hfirst, hrest⟩ := List.pairwise_cons.mp h
    cases ha with
    | head =>
      cases hb with
      | head => exact absurd hlt (lt_irrefl _)
      | tail _ hb => exact (List.singleton_sublist.mpr hb).cons_cons a
    | tail _ ha =>
      cases hb with
      | head =>
        obtain hba | ⟨heq, _⟩ := hfirst a ha
        · omega
        · omega
      | tail _ hb => exact (ih hrest ha hb).cons m

/-- Messages that are named by their index, from one on. -/
lemma forall₂_ids {f : Value × ℕ → Except String ImportMessage} {id : JsString} {inputs : List Value} {k : ℕ}
    {messages : List ImportMessage} (hf : ∀ m row, f m = .ok row → row.externalId = indexed id m.2)
    (h : List.Forall₂ (fun m row => f m = .ok row) (inputs.zipIdx k) messages) :
    messages.map ImportMessage.externalId = (List.range' k inputs.length).map (indexed id) := by
  induction inputs generalizing k messages with
  | nil =>
    cases h
    rfl
  | cons v rest ih =>
    rw [List.zipIdx_cons] at h
    cases h with
    | cons hrow hrest =>
      rw [List.map_cons, ih hrest, hf _ _ hrow, List.length_cons, List.range'_succ]
      rfl

lemma forall₂_nodup {f : Value × ℕ → Except String ImportMessage} {id : JsString} {inputs : List Value}
    {messages : List ImportMessage} (hf : ∀ m row, f m = .ok row → row.externalId = indexed id m.2)
    (h : List.Forall₂ (fun m row => f m = .ok row) inputs.zipIdx messages) :
    (messages.map ImportMessage.externalId).Nodup := by
  have hrange : (List.range' 0 inputs.length).Nodup := List.nodup_range'
  rw [forall₂_ids hf h]
  exact hrange.map (indexed_injective id)

lemma forall₂_named {f : Value × ℕ → Except String ImportMessage} {id : JsString} {inputs : List (Value × ℕ)}
    {messages : List ImportMessage} (hf : ∀ m row, f m = .ok row → row.conversationExternalId = id)
    (h : List.Forall₂ (fun m row => f m = .ok row) inputs messages) : ∀ m ∈ messages, m.conversationExternalId = id := by
  induction h with
  | nil => exact List.forall_mem_nil _
  | cons hrow _ ih => exact List.forall_mem_cons.mpr ⟨hf _ _ hrow, ih⟩

lemma claudeMessage_ok {uuid : JsString} {m : Value × ℕ} {row : ImportMessage} (h : claudeMessage dateOf uuid m = .ok row) :
    row.conversationExternalId = uuid ∧ row.externalId = indexed uuid m.2 := by
  unfold claudeMessage at h
  split_ifs at h
  cases h
  exact ⟨rfl, rfl⟩

lemma geminiMessage_ok {id : JsString} {m : Value × ℕ} {row : ImportMessage} (h : geminiMessage dateOf id m = .ok row) :
    row.conversationExternalId = id ∧ row.externalId = indexed id m.2 := by
  unfold geminiMessage at h
  by_cases hobj : isObj m.1 = true
  · rw [if_pos hobj] at h
    cases h
    exact ⟨rfl, rfl⟩
  · rw [if_neg hobj] at h
    cases h

lemma chatgptMessage_some {id : JsString} {entry : JsString × Value} {row : ImportMessage}
    (h : chatgptMessage dateOf id entry = some row) : row.conversationExternalId = id := by
  unfold chatgptMessage at h
  dsimp only at h
  split_ifs at h
  cases h
  rfl

lemma attributable_chatgpt {c : Value × ℕ} {i : Imported} (h : chatgptConversation dateOf c.2 c.1 = .ok i) :
    Attributable dateOf .chatgpt c i ∧ i.conversation.externalId =
      (conversationKey dateOf .chatgpt c).1 ++ ofText "_" ++ numberText (conversationKey dateOf .chatgpt c).2 := by
  have hread := h
  unfold chatgptConversation at h
  dsimp only at h
  split_ifs at h
  cases h
  refine ⟨⟨hread, rfl, ?_, ?_, ?_⟩, rfl⟩
  · intro m hm
    obtain ⟨entry, _, hentry⟩ := List.mem_filterMap.mp ((List.mem_insertionSort _).mp hm)
    exact chatgptMessage_some hentry
  · exact List.perm_insertionSort _ _
  · intro a ha b hb hlt
    exact pair_sublist (List.pairwise_insertionSort _ _) ha hb hlt

lemma attributable_claude {c : Value × ℕ} {i : Imported} (h : claudeConversation dateOf c.2 c.1 = .ok i) :
    Attributable dateOf .claude c i ∧ i.conversation.externalId = (conversationKey dateOf .claude c).1 := by
  have hread := h
  unfold claudeConversation at h
  split at h
  · next inputs _ hinputs =>
    obtain ⟨messages, hmessages, hi⟩ := bind_eq_ok h
    cases hi
    have hrows := mapM_forall₂ hmessages
    refine ⟨⟨hread, rfl, ?_, ?_, inputs, hinputs, hrows⟩, rfl⟩
    · exact forall₂_named (fun m row hrow => (claudeMessage_ok hrow).1) hrows
    · exact forall₂_nodup (fun m row hrow => (claudeMessage_ok hrow).2) hrows
  · cases h

lemma attributable_gemini {c : Value × ℕ} {i : Imported} (h : geminiConversation dateOf c.2 c.1 = .ok i) :
    Attributable dateOf .gemini c i ∧ i.conversation.externalId = (conversationKey dateOf .gemini c).1 := by
  have hread := h
  unfold geminiConversation at h
  split at h
  · next inputs _ hinputs =>
    obtain ⟨messages, hmessages, hi⟩ := bind_eq_ok h
    cases hi
    have hrows := mapM_forall₂ hmessages
    refine ⟨⟨hread, rfl, ?_, ?_, inputs, hinputs, hrows⟩, rfl⟩
    · exact forall₂_named (fun m row hrow => (geminiMessage_ok hrow).1) hrows
    · exact forall₂_nodup (fun m row hrow => (geminiMessage_ok hrow).2) hrows
  · cases h

lemma attributable {c : Value × ℕ} {i : Imported} (h : conversationOf dateOf source c.2 c.1 = .ok i) :
    Attributable dateOf source c i := by
  cases source with
  | chatgpt => exact (attributable_chatgpt h).1
  | claude => exact (attributable_claude h).1
  | gemini => exact (attributable_gemini h).1

lemma externalId_eq_iff {c d : Value × ℕ} {i j : Imported} (hi : conversationOf dateOf source c.2 c.1 = .ok i)
    (hj : conversationOf dateOf source d.2 d.1 = .ok j) :
    i.conversation.externalId = j.conversation.externalId ↔ conversationKey dateOf source c = conversationKey dateOf source d := by
  cases source with
  | chatgpt =>
    rw [(attributable_chatgpt hi).2, (attributable_chatgpt hj).2]
    constructor
    · intro h
      have hmark : ofText "_" = [95] := by decide
      rw [hmark, List.append_assoc, List.append_assoc, List.singleton_append, List.singleton_append] at h
      obtain ⟨htitle, hts⟩ := separated_injective (numberText_plain _) (numberText_plain _) h
      exact Prod.ext htitle (numberText_injective hts)
    · intro h
      rw [h]
  | claude =>
    rw [(attributable_claude hi).2, (attributable_claude hj).2]
    simp only [conversationKey, Prod.mk.injEq, and_true]
  | gemini =>
    rw [(attributable_gemini hi).2, (attributable_gemini hj).2]
    simp only [conversationKey, Prod.mk.injEq, and_true]

lemma forall₂_nodup_iff {α β γ δ : Type} {R : α → β → Prop} {f : α → γ} {g : β → δ}
    (heq : ∀ a b a' b', R a b → R a' b' → (g b = g b' ↔ f a = f a')) {xs : List α} {ys : List β} (h : List.Forall₂ R xs ys) :
    (ys.map g).Nodup ↔ (xs.map f).Nodup := by
  induction h with
  | nil => exact iff_of_true .nil .nil
  | @cons a b xs ys hab hrest ih =>
    have hmem : g b ∈ ys.map g ↔ f a ∈ xs.map f := by
      clear ih
      induction hrest with
      | nil => exact iff_of_false List.not_mem_nil List.not_mem_nil
      | cons hab' _ ih => rw [List.map_cons, List.map_cons, List.mem_cons, List.mem_cons, ih, heq _ _ _ _ hab hab']
    rw [List.map_cons, List.map_cons, List.nodup_cons, List.nodup_cons, hmem, ih]

lemma countConversations_rows (imported : List Imported) :
    countConversations (imported.flatMap Imported.rows) = imported.length := by
  induction imported with
  | nil => rfl
  | cons i rest ih =>
    have hmessages : (i.messages.map fun m => (⟨.message m, false⟩ : ParsedChunk ImportChunkData)).filter (fun r =>
        match r.data with | .conversation _ => true | _ => false) = [] := by
      rw [List.filter_eq_nil_iff]
      intro r hr
      obtain ⟨m, _, rfl⟩ := List.mem_map.mp hr
      exact Bool.false_ne_true
    unfold countConversations at ih ⊢
    rw [List.flatMap_cons, List.filter_append, List.length_append, ih, Imported.rows, List.filter_cons_of_pos rfl,
      hmessages, List.length_singleton, List.length_cons, add_comm]

/-- An export of two untitled conversations, written with carets for quotes. -/
def untitled : JsString :=
  let text := "[\x7b^mapping^:\x7b^b^:\x7b^message^:\x7b^create_time^:1.1\x7d\x7d,^a^:\x7b^message^:\x7b^create_time^:1.9\x7d\x7d\x7d\x7d," ++
    "\x7b^mapping^:\x7b^c^:\x7b^message^:\x7b^id^:^m^\x7d\x7d,^d^:\x7b^message^:\x7b^id^:^m^\x7d\x7d\x7d\x7d]"
  ofText (String.ofList (text.toList.map fun c => if c = '^' then '"' else c))

/-- The external ids of the rows, each with whether it is a conversation's. -/
def externalIds (rows : List (ParsedChunk ImportChunkData)) : List (Bool × JsString) :=
  rows.filterMap fun r =>
    match r.data with
    | .conversation c => some (true, c.externalId)
    | .message m => some (false, m.externalId)
    | .done .. => none

def untitledRows : List (ParsedChunk ImportChunkData) :=
  ((transform (fun _ => none) (fun _ => "") .chatgpt untitled).toOption).getD []

lemma untitled_run : (transform (fun _ => none) (fun _ => "") .chatgpt untitled).toOption.map externalIds =
    some [(true, ofText "_0"), (false, ofText "a"), (false, ofText "b"), (true, ofText "_0"), (false, ofText "m"),
      (false, ofText "m")] := by
  decide +kernel

lemma untitled_transforms : transform (fun _ => none) (fun _ => "") .chatgpt untitled = .ok untitledRows := by
  obtain ⟨rows, hrows, _⟩ := ok_of_toOption untitled_run
  rw [untitledRows, hrows]
  rfl

end Law

end VivimOmega.Chat

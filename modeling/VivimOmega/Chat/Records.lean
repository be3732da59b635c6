import VivimOmega.Chat.Import
import VivimOmega.Nlcl.Text

/-! The rows of a chat: conversations, their messages, and the index row that counts the messages. -/

namespace VivimOmega.Chat

open Library Library.Json

section Ids

def chatNs : String := "chat"

/-- `CHAT_HISTORY_CAP` -/
def historyCap : ℕ := 200

def isIdUnit (u : UInt16) : Bool := (48 ≤ u && u ≤ 57) || (97 ≤ u && u ≤ 122) || u = 95

def stemText (stem : String) : JsString := ofText (stem ++ "_")

/-- `^<stem>_[0-9a-z_]{1,64}$` -/
def isId (stem : String) (s : JsString) : Bool :=
  (stemText stem).isPrefixOf s && 1 ≤ (s.drop (stemText stem).length).length &&
    (s.drop (stemText stem).length).length ≤ 64 && (s.drop (stemText stem).length).all isIdUnit

abbrev Id (stem : String) := {s : JsString // isId stem s = true}

def checkId (op stem : String) (v : Value) : Except String (Id stem) :=
  match v with
  | .string s =>
    if s = [] then throw (op ++ ": id must be a non-empty string")
    else if h : isId stem s = true then return ⟨s, h⟩
    else do
      let text ← shown v
      throw (op ++ ": id must use the " ++ stem ++ "_ prefix and lowercase grammar (got " ++ text ++ ")")
  | _ => throw (op ++ ": id must be a non-empty string")

def chatConversationId (v : Value) : Except String (Id "conv") := checkId "chatConversationId" "conv" v

def chatMessageId (v : Value) : Except String (Id "msg") := checkId "chatMessageId" "msg" v

/-- The id of the index row of a conversation. -/
def chatIndexId (conversationId : JsString) : Except String JsString :=
  if (stemText "conv").isPrefixOf conversationId then
    return stemText "idx" ++ conversationId.drop (stemText "conv").length
  else do
    let text ← shown (.string conversationId)
    throw ("chatIndexId: expected a conv_ id (got " ++ text ++ ")")

def isHexUnit (u : UInt16) : Bool := (48 ≤ u && u ≤ 57) || (97 ≤ u && u ≤ 102)

/-- `randomBytes(8).toString("hex")` -/
abbrev Mint := {s : JsString // s.length = 16 ∧ s.all isHexUnit = true}

def minted (stem : String) (m : Mint) : JsString := stemText stem ++ m.1

lemma isId_minted (stem : String) (m : Mint) : isId stem (minted stem m) = true := by
  have hunits : m.1.all isIdUnit = true := by
    refine List.all_eq_true.mpr fun u hu => ?_
    have hhex := List.all_eq_true.mp m.2.2 u hu
    simp only [isHexUnit, isIdUnit, Bool.or_eq_true, Bool.and_eq_true, decide_eq_true_eq] at hhex ⊢
    obtain hdigit | ⟨hlow, hhigh⟩ := hhex
    · exact Or.inl (Or.inl hdigit)
    · exact Or.inl (Or.inr ⟨hlow, UInt16.le_trans hhigh (by decide)⟩)
  have hlength := m.2.1
  simp [isId, minted, List.isPrefixOf_iff_prefix, hunits, hlength]

lemma checkId_id (op : String) {stem : String} (id : Id stem) : checkId op stem (.string id.1) = .ok id := by
  have hne : id.1 ≠ [] := by
    intro hnil
    have hid := id.2
    rw [hnil] at hid
    simp [isId] at hid
  rw [checkId, if_neg hne, dif_pos id.2]
  rfl

/-- A text without surrogates stands for itself. -/
lemma ofText_toText {s : JsString} (h : ∀ u ∈ s, ¬ IsSurrogate u) : ofText (toText s) = s := by
  rw [ofText, toText, String.toList_ofList]
  induction s with
  | nil => rfl
  | cons u rest ih =>
    rw [wellFormed_plain (h u List.mem_cons_self), List.flatMap_cons, units_unitChar (h u List.mem_cons_self),
      ih fun v hv => h v (List.mem_cons_of_mem _ hv)]
    rfl

lemma plain_idUnit {u : UInt16} (h : isIdUnit u = true) : ¬ IsSurrogate u := by
  simp only [isIdUnit, Bool.or_eq_true, Bool.and_eq_true, decide_eq_true_eq, UInt16.le_iff_toNat_le] at h
  rintro ⟨hlow, _⟩
  obtain (⟨_, hle⟩ | ⟨_, hle⟩) | rfl := h
  · exact absurd (hlow.trans hle) (by decide)
  · exact absurd (hlow.trans hle) (by decide)
  · exact absurd hlow (by decide)

end Ids

section Fields

/-- `typeof v === "object" && v !== null` -/
def isReference : Value → Bool
  | .object _ => true
  | .array _ => true
  | _ => false

def isNumber : Value → Bool
  | .number _ => true
  | _ => false

def isStream (v : Value) : Bool :=
  isReference v && (textOf (optionalProperty v "streamId")).isSome && isNumber (optionalProperty v "chunks") &&
    isNumber (optionalProperty v "finalSeq")

/-- Absent, or a value that passes. -/
def optional {α : Type} (read : Value → Option α) : Value → Option (Option α)
  | .undefined => some none
  | v => (read v).map some

def refine? (p : Value → Bool) (v : Value) : Option {v : Value // p v = true} := if h : p v = true then some ⟨v, h⟩ else none

def finite? : Value → Option {n : Number // n.IsFinite}
  | .number n => if h : n.IsFinite then some ⟨n, h⟩ else none
  | _ => none

def natural? : Value → Option ℕ
  | .number n =>
    match n.toInt? with
    | some (.ofNat k) => some k
    | _ => none
  | _ => none

def positive? (v : Value) : Option {n : ℕ // 1 ≤ n} := (natural? v).bind fun k => if h : 1 ≤ k then some ⟨k, h⟩ else none

def Role.name : Role → String
  | .user => "user"
  | .assistant => "assistant"
  | .system => "system"

def role? (v : Value) : Option Role :=
  match v with
  | .string s => [Role.user, .assistant, .system].find? fun r => s = ofText r.name
  | _ => none

lemma natural?_ofInt (k : ℕ) : natural? (.number (.ofInt k)) = some k := by
  rw [natural?, toInt?_ofInt]

lemma positive?_ofInt (k : {n : ℕ // 1 ≤ n}) : positive? (.number (.ofInt k.1)) = some k := by
  rw [positive?, natural?_ofInt, Option.bind_some, dif_pos k.2]

lemma finite?_number (n : {n : Number // n.IsFinite}) : finite? (.number n.1) = some n := dif_pos n.2

lemma role?_name (r : Role) : role? (jsText r.name) = some r := by
  cases r <;> decide +kernel

end Fields

section Shapes

structure ChatConversation where
  id : JsString
  principal : {s : JsString // s ≠ []}
  title : Option JsString
  createdAt : {n : Number // n.IsFinite}

structure ChatMessage where
  id : JsString
  conversationId : JsString
  role : Role
  seq : {n : ℕ // 1 ≤ n}
  content : JsString
  providerId : Option JsString
  realizationRef : Option {v : Value // isReference v = true}
  streamRef : Option {v : Value // isStream v = true}
  createdAt : {n : Number // n.IsFinite}

structure ChatIndexEntry where
  id : JsString
  seq : ℕ
  deriving DecidableEq

structure ChatIndex where
  conversationId : JsString
  count : ℕ
  entries : List ChatIndexEntry

/-- A member that is there only where it has a value. -/
def member (name : String) (v : Option Value) : List (JsString × Value) := (v.map fun v => (ofText name, v)).toList

def ChatConversation.value (c : ChatConversation) : Value :=
  .object ([(ofText "id", .string c.id), (ofText "principal", .string c.principal.1)] ++
    member "title" (c.title.map .string) ++ [(ofText "createdAt", .number c.createdAt.1)])

def ChatMessage.value (m : ChatMessage) : Value :=
  .object ([(ofText "id", .string m.id), (ofText "conversationId", .string m.conversationId),
    (ofText "role", jsText m.role.name), (ofText "seq", .number (.ofInt m.seq.1)), (ofText "content", .string m.content)] ++
      member "providerId" (m.providerId.map .string) ++ member "realizationRef" (m.realizationRef.map Subtype.val) ++
        member "streamRef" (m.streamRef.map Subtype.val) ++ [(ofText "createdAt", .number m.createdAt.1)])

def ChatIndexEntry.value (e : ChatIndexEntry) : Value :=
  .object [(ofText "id", .string e.id), (ofText "seq", .number (.ofInt e.seq))]

def ChatIndex.value (i : ChatIndex) : Value :=
  .object [(ofText "conversationId", .string i.conversationId), (ofText "count", .number (.ofInt i.count)),
    (ofText "entries", .array (i.entries.map ChatIndexEntry.value))]

end Shapes

section Readers

def asChatConversation (data : Value) : Option ChatConversation :=
  if isObj data then do
    let id ← textOf (optionalProperty data "id")
    let principal ← textOf (optionalProperty data "principal")
    let createdAt ← finite? (optionalProperty data "createdAt")
    let title ← optional textOf (optionalProperty data "title")
    if h : principal ≠ [] then return { id, principal := ⟨principal, h⟩, title, createdAt } else none
  else none

def asChatMessage (data : Value) : Option ChatMessage :=
  if isObj data then do
    let id ← textOf (optionalProperty data "id")
    let conversationId ← textOf (optionalProperty data "conversationId")
    let role ← role? (optionalProperty data "role")
    let seq ← positive? (optionalProperty data "seq")
    let content ← textOf (optionalProperty data "content")
    let createdAt ← finite? (optionalProperty data "createdAt")
    let providerId ← optional textOf (optionalProperty data "providerId")
    let realizationRef ← optional (refine? isReference) (optionalProperty data "realizationRef")
    let streamRef ← optional (refine? isStream) (optionalProperty data "streamRef")
    return { id, conversationId, role, seq, content, providerId, realizationRef, streamRef, createdAt }
  else none

def asChatIndexEntry (e : Value) : Option ChatIndexEntry :=
  if isObj e then do
    let id ← textOf (optionalProperty e "id")
    let seq ← positive? (optionalProperty e "seq")
    if (stemText "msg").isPrefixOf id then return { id, seq := seq.1 } else none
  else none

/-- A row whose count is not that of its entries, or that has an id of another kind, is no index. -/
def asChatIndex (data : Value) : Option ChatIndex :=
  if isObj data then do
    let conversationId ← textOf (optionalProperty data "conversationId")
    let count ← natural? (optionalProperty data "count")
    let items ← arrayOf (optionalProperty data "entries")
    let entries ← items.mapM asChatIndexEntry
    if (stemText "conv").isPrefixOf conversationId ∧ count ≤ historyCap ∧ items.length = count then
      return { conversationId, count, entries }
    else none
  else none

lemma optional_text (s : Option JsString) :
    optional textOf ((s.map Value.string).getD .undefined) = some s := by
  cases s <;> rfl

lemma optional_refine {p : Value → Bool} (hp : p .undefined = false) (v : Option {v : Value // p v = true}) :
    optional (refine? p) ((v.map Subtype.val).getD .undefined) = some v := by
  cases v with
  | none => rfl
  | some w =>
    obtain ⟨w, hw⟩ := w
    rw [Option.map_some, Option.getD_some]
    have hread : (refine? p w).map some = some (some ⟨w, hw⟩) := by rw [refine?, dif_pos hw]; rfl
    cases w with
    | undefined => rw [hp] at hw; cases hw
    | _ => exact hread

lemma asChatConversation_value (c : ChatConversation) : asChatConversation c.value = some c := by
  obtain ⟨id, ⟨principal, hprincipal⟩, title, createdAt⟩ := c
  have htitle : optionalProperty (ChatConversation.value ⟨id, ⟨principal, hprincipal⟩, title, createdAt⟩) "title" =
      (title.map Value.string).getD .undefined := by
    cases title <;> rfl
  have hcreated : optionalProperty (ChatConversation.value ⟨id, ⟨principal, hprincipal⟩, title, createdAt⟩) "createdAt" =
      .number createdAt.1 := by
    cases title <;> rfl
  rw [asChatConversation, htitle, hcreated, finite?_number, optional_text]
  exact (dif_pos hprincipal : (if h : principal ≠ [] then _ else none) = _)

/-- A message is read back as it was written. -/
lemma asChatMessage_value (m : ChatMessage) : asChatMessage m.value = some m := by
  have hprovider : optionalProperty m.value "providerId" = (m.providerId.map Value.string).getD .undefined := by
    obtain ⟨_, _, _, _, _, provider, realization, stream, _⟩ := m
    cases provider <;> cases realization <;> cases stream <;> rfl
  have hrealization : optionalProperty m.value "realizationRef" = (m.realizationRef.map Subtype.val).getD .undefined := by
    obtain ⟨_, _, _, _, _, provider, realization, stream, _⟩ := m
    cases provider <;> cases realization <;> cases stream <;> rfl
  have hstream : optionalProperty m.value "streamRef" = (m.streamRef.map Subtype.val).getD .undefined := by
    obtain ⟨_, _, _, _, _, provider, realization, stream, _⟩ := m
    cases provider <;> cases realization <;> cases stream <;> rfl
  have hcreated : optionalProperty m.value "createdAt" = .number m.createdAt.1 := by
    obtain ⟨_, _, _, _, _, provider, realization, stream, _⟩ := m
    cases provider <;> cases realization <;> cases stream <;> rfl
  have hid : optionalProperty m.value "id" = .string m.id := rfl
  have hconversation : optionalProperty m.value "conversationId" = .string m.conversationId := rfl
  have hrole : optionalProperty m.value "role" = jsText m.role.name := rfl
  have hseq : optionalProperty m.value "seq" = .number (.ofInt m.seq.1) := rfl
  have hcontent : optionalProperty m.value "content" = .string m.content := rfl
  have hobject : isObj m.value = true := rfl
  rw [asChatMessage, if_pos hobject, hprovider, hrealization, hstream, hcreated, hid, hconversation, hrole, hseq, hcontent,
    role?_name, positive?_ofInt, finite?_number, optional_text, optional_refine rfl, optional_refine rfl]
  rfl

lemma asChatIndexEntry_value {e : ChatIndexEntry} (hid : (stemText "msg").isPrefixOf e.id = true) (hseq : 1 ≤ e.seq) :
    asChatIndexEntry e.value = some e := by
  have hobject : isObj e.value = true := rfl
  have htext : optionalProperty e.value "id" = .string e.id := rfl
  have hnumber : optionalProperty e.value "seq" = .number (.ofInt e.seq) := rfl
  rw [asChatIndexEntry, if_pos hobject, htext, hnumber, positive?_ofInt ⟨e.seq, hseq⟩]
  exact if_pos hid

/-- An index is read back as it was written, where it counts its entries and they are within the cap. -/
lemma asChatIndex_value {i : ChatIndex} (hconversation : (stemText "conv").isPrefixOf i.conversationId = true)
    (hcount : i.count = i.entries.length) (hcap : i.count ≤ historyCap)
    (hentries : ∀ e ∈ i.entries, (stemText "msg").isPrefixOf e.id = true ∧ 1 ≤ e.seq) :
    asChatIndex i.value = some i := by
  have hobject : isObj i.value = true := rfl
  have htext : optionalProperty i.value "conversationId" = .string i.conversationId := rfl
  have hnumber : optionalProperty i.value "count" = .number (.ofInt i.count) := rfl
  have hitems : optionalProperty i.value "entries" = .array (i.entries.map ChatIndexEntry.value) := rfl
  have hread : (i.entries.map ChatIndexEntry.value).mapM asChatIndexEntry = some i.entries := by
    generalize i.entries = es at hentries
    induction es with
    | nil => rfl
    | cons e rest ih =>
      obtain ⟨hid, hseq⟩ := hentries e List.mem_cons_self
      rw [List.map_cons, List.mapM_cons, asChatIndexEntry_value hid hseq,
        ih fun e' he' => hentries e' (List.mem_cons_of_mem _ he')]
      rfl
  rw [asChatIndex, if_pos hobject, htext, hnumber, hitems, natural?_ofInt]
  simp only [textOf, arrayOf, Option.bind_eq_bind, Option.bind_some, hread, List.length_map]
  exact if_pos ⟨hconversation, hcap, hcount.symm⟩

end Readers

end VivimOmega.Chat

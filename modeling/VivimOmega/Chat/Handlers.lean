import VivimOmega.Chat.Records
import VivimOmega.Vault.Port

/-! The chat operations: what they accept, and what they ask of the vault. -/

namespace VivimOmega.Chat

open Library Library.Json Vault

section Payloads

def nulOrBar (u : UInt16) : Bool := u = 0 || u = 124

lemma ne_nil_of_trim {s : JsString} (h : Nlcl.trim s ≠ []) : s ≠ [] := by
  rintro rfl
  exact h rfl

def checkPrincipal (op : String) (v : Value) : Except String {s : JsString // s ≠ []} :=
  let refusal := op ++ ": principal must be a non-empty string (D-353: any principal string is legal — user:<id>, " ++
    "agent:<id>, …)"
  match v with
  | .string s =>
    if h : Nlcl.trim s ≠ [] then
      if s.any nulOrBar then throw (op ++ ": principal must not contain NUL or '|'")
      else return ⟨s, ne_nil_of_trim h⟩
    else throw refusal
  | _ => throw refusal

def nonEmptyText? : Value → Option JsString
  | .string (u :: rest) => some (u :: rest)
  | _ => none

def checkConversationRef (op : String) (v : Value) : Except String (Id "conv") := do
  require (nonEmptyText? v).isSome (op ++ ": conversationId must be a non-empty string")
  chatConversationId v

def checkRole (op : String) (v : Value) : Except String Role :=
  match role? v with
  | some r => return r
  | none => do
    let text ← shown v
    throw (op ++ ": role must be one of user|assistant|system (got " ++ text ++ ")")

def maxContent : ℕ := 100000

def checkContent (op : String) (v : Value) : Except String JsString :=
  match nonEmptyText? v with
  | none => throw (op ++ ": content must be a non-empty string")
  | some s =>
    if s.length > maxContent then
      throw (op ++ ": content exceeds 100k chars — refused fail-closed, never silently truncated")
    else return s

def streamValue (streamId : JsString) (chunks finalSeq : ℕ) : Value :=
  .object [(ofText "streamId", .string streamId), (ofText "chunks", .number (.ofInt chunks)),
    (ofText "finalSeq", .number (.ofInt finalSeq))]

lemma isStream_streamValue (streamId : JsString) (chunks finalSeq : ℕ) :
    isStream (streamValue streamId chunks finalSeq) = true := rfl

def checkStreamRef (op : String) (v : Value) : Except String {v : Value // isStream v = true} := do
  require (isObj v) (op ++ ": streamRef must be an object \x7bstreamId, chunks, finalSeq\x7d")
  let streamId ← required (nonEmptyText? (optionalProperty v "streamId"))
    (op ++ ": streamRef.streamId must be a non-empty string")
  let chunks ← required (positive? (optionalProperty v "chunks"))
    (op ++ ": streamRef.chunks must be a positive integer")
  let finalSeq ← required (positive? (optionalProperty v "finalSeq"))
    (op ++ ": streamRef.finalSeq must be a positive integer (the final chunk's seq)")
  return ⟨streamValue streamId chunks.1 finalSeq.1, isStream_streamValue _ _ _⟩

def referenceValue (ns id : JsString) (rev : ℕ) : Value :=
  .object [(ofText "ns", .string ns), (ofText "id", .string id), (ofText "rev", .number (.ofInt rev))]

lemma isReference_referenceValue (ns id : JsString) (rev : ℕ) : isReference (referenceValue ns id rev) = true := rfl

def checkRealizationRef (op : String) (v : Value) : Except String {v : Value // isReference v = true} := do
  require (isObj v) (op ++ ": realizationRef must be a \x7bns, id, rev\x7d ref")
  let ns ← required (nonEmptyText? (optionalProperty v "ns")) (op ++ ": realizationRef.ns must be a non-empty string")
  let id ← required (nonEmptyText? (optionalProperty v "id")) (op ++ ": realizationRef.id must be a non-empty string")
  let rev ← required (positive? (optionalProperty v "rev"))
    (op ++ ": realizationRef.rev must be an integer >= 1 (vault ref grammar)")
  return ⟨referenceValue ns id rev.1, isReference_referenceValue _ _ _⟩

/-- A field that is checked only where it is given. -/
def given {α : Type} (v : Value) (check : Value → Except String α) : Except String (Option α) :=
  match v with
  | .undefined => return none
  | v => do
    let a ← check v
    return some a

structure AppendInput where
  conversationId : Id "conv"
  role : Role
  content : JsString
  providerId : Option JsString
  realizationRef : Option {v : Value // isReference v = true}
  streamRef : Option {v : Value // isStream v = true}

def appendOp : String := "chat.append@1"

def parseAppendInput (payload : Value) : Except String AppendInput := do
  require (isObj payload) (appendOp ++ ": payload must be an object \x7bconversationId, role, content, providerId?, " ++
    "realizationRef?, streamRef?\x7d")
  let conversationId ← checkConversationRef appendOp (optionalProperty payload "conversationId")
  let role ← checkRole appendOp (optionalProperty payload "role")
  let content ← checkContent appendOp (optionalProperty payload "content")
  let providerId ← given (optionalProperty payload "providerId") fun v =>
    required (nonEmptyText? v) (appendOp ++ ": providerId must be a non-empty string when provided")
  let realizationRef ← given (optionalProperty payload "realizationRef") (checkRealizationRef appendOp)
  let streamRef ← given (optionalProperty payload "streamRef") (checkStreamRef appendOp)
  return { conversationId, role, content, providerId, realizationRef, streamRef }

structure HistoryInput where
  conversationId : Id "conv"
  limit : Option ℕ
  principal : Option {s : JsString // s ≠ []}

def historyOp : String := "chat.history@1"

def checkLimit (v : Value) : Except String ℕ :=
  match positive? v with
  | some n =>
    if n.1 ≤ historyCap then return n.1
    else throw (historyOp ++ ": limit must be an integer in [1, 200]")
  | none => throw (historyOp ++ ": limit must be an integer in [1, 200]")

def parseHistoryInput (payload : Value) : Except String HistoryInput := do
  require (isObj payload) (historyOp ++ ": payload must be an object \x7bconversationId, limit?, principal?\x7d")
  let conversationId ← checkConversationRef historyOp (optionalProperty payload "conversationId")
  let limit ← given (optionalProperty payload "limit") checkLimit
  let principal ← given (optionalProperty payload "principal") (checkPrincipal historyOp)
  return { conversationId, limit, principal }

structure OpenInput where
  principal : {s : JsString // s ≠ []}
  title : Option JsString

def openOp : String := "chat.open@1"

def parseOpenInput (payload : Value) : Except String OpenInput := do
  require (isObj payload) (openOp ++ ": payload must be an object \x7bprincipal, title?\x7d")
  let principal ← checkPrincipal openOp (optionalProperty payload "principal")
  let title ← given (optionalProperty payload "title") fun v =>
    required (nonEmptyText? v) (openOp ++ ": title must be a non-empty string when provided")
  return { principal, title }

end Payloads

section Index

/-- The next index row after one append; where there was none yet, it takes in the messages that a scan found. -/
def nextChatIndex (conversationId : JsString) (prior : Option ChatIndex) (priorMessages : List ChatMessage)
    (added : ChatIndexEntry) : ChatIndex :=
  let entries := match prior with
    | some p => p.entries ++ [added]
    | none => (priorMessages.map fun m => ⟨m.id, m.seq.1⟩) ++ [added]
  { conversationId, count := entries.length, entries }

def messageLe (a b : ChatMessage) : Prop := a.seq.1 < b.seq.1 ∨ a.seq = b.seq ∧ keyLe a.id b.id

instance instDecidableMessageLe : DecidableRel messageLe := fun a b =>
  inferInstanceAs (Decidable (a.seq.1 < b.seq.1 ∨ a.seq = b.seq ∧ keyLe a.id b.id))

def orderMessages (messages : List ChatMessage) : List ChatMessage := messages.insertionSort messageLe

def nextMessageSeq (priorCount : ℕ) : {n : ℕ // 1 ≤ n} := ⟨priorCount + 1, Nat.le_add_left 1 priorCount⟩

end Index

section Calls

/-- A port call whose failure is thrown. -/
def portCall (q : Request) : Handler q.Value :=
  ExceptT.mk (.ask q fun r => .done (r.mapError fun f => "vivim.chat: " ++ failed q f))

lemma run_portCall {β : Type} (q : Request) (k : q.Value → Handler β) : (portCall q >>= k).run =
    .ask q fun r => match r with
      | .error f => .done (.error ("vivim.chat: " ++ failed q f))
      | .ok a => (k a).run := by
  apply congrArg (Process.ask q)
  funext r
  cases r <;> rfl

def key (id : JsString) : String := toText id

def mustLoadConversation (conversationId : JsString) : Handler (ChatConversation × ℕ) := do
  let r ← call (.get chatNs (key conversationId))
  match r with
  | .error _ => throw ("vivim.chat: conversation " ++ key conversationId ++ " does not exist in ns " ++ chatNs ++
      " — refusing (attributable)")
  | .ok got =>
    match asChatConversation got.data with
    | none => throw ("vivim.chat: conversation row " ++ key conversationId ++ " is malformed — refusing (fail-closed)")
    | some conv => return (conv, got.rev)

/-- A row that is there and is no index is never taken for an absent one. -/
def loadIndex (op : String) (conversationId : JsString) : Handler (Option ChatIndex) := do
  let id ← liftM (chatIndexId conversationId)
  let r ← call (.get chatNs (key id))
  match r with
  | .error _ => return none
  | .ok got =>
    match asChatIndex got.data with
    | none => throw (op ++ ": index row " ++ key id ++ " is malformed — refusing fail-closed (D-378)")
    | some idx => return some idx

/-- The message in a row, where it is one of the conversation. -/
def messageOf (conversationId : JsString) (data : Value) : Option ChatMessage :=
  (asChatMessage data).filter fun m => m.conversationId = conversationId

/-- Rows that cannot be read are skipped. -/
def fetch (conversationId : JsString) : List String → Handler (List ChatMessage)
  | [] => return []
  | id :: rest => do
    let r ← call (.get chatNs id)
    let messages ← fetch conversationId rest
    match r with
    | .error _ => return messages
    | .ok got => return (messageOf conversationId got.data).toList ++ messages

def loadConversationMessages (conversationId : JsString) : Handler (List ChatMessage) := do
  let rows ← portCall (.query chatNs (some "msg_"))
  fetch conversationId (rows.map Listed.id)

def entryLe (a b : ChatIndexEntry) : Prop := a.seq ≤ b.seq

instance instDecidableEntryLe : DecidableRel entryLe := fun a b => inferInstanceAs (Decidable (a.seq ≤ b.seq))

def fetchByIndex (idx : ChatIndex) : Handler (List ChatMessage) :=
  fetch idx.conversationId ((idx.entries.insertionSort entryLe).map fun e => key e.id)

end Calls

section Operations

structure Opened where
  conversationId : JsString
  rev : ℕ
  createdAt : ℕ

structure Appended where
  messageId : JsString
  rev : ℕ
  seq : ℕ

structure History where
  conversation : ChatConversation
  messages : List ChatMessage
  total : ℕ

/-- The envelope of a read that another principal asked for. -/
structure PrincipalRefusal where
  detail : String
  ledgerId : JsString
  ledgerRev : ℕ

def timeOf (now : ℕ) : {n : Number // n.IsFinite} := ⟨.ofInt now, isFinite_ofInt now⟩

def chatOpen (mint : Mint) (now : ℕ) (payload : Value) : Handler Opened := do
  let input ← liftM (parseOpenInput payload)
  let id ← liftM (chatConversationId (.string (minted "conv" mint)))
  let conversation : ChatConversation :=
    { id := id.1, principal := input.principal, title := input.title, createdAt := timeOf now }
  let rev ← portCall (.append chatNs (key id.1) conversation.value
    (.object [(ofText "type", jsText "conversation"), (ofText "principal", .string input.principal.1)]))
  return { conversationId := id.1, rev, createdAt := now }

def messageMeta (m : ChatMessage) : Value :=
  .object [(ofText "type", jsText "message"), (ofText "conversationId", .string m.conversationId),
    (ofText "role", jsText m.role.name), (ofText "seq", .number (.ofInt m.seq.1))]

def indexMeta (conversationId : JsString) : Value :=
  .object [(ofText "type", jsText "conversation-index"), (ofText "conversationId", .string conversationId)]

/-- The message that an append writes. -/
def appended (mint : Mint) (now : ℕ) (input : AppendInput) (conversationId : JsString) (priorCount : ℕ) : ChatMessage where
  id := minted "msg" mint
  conversationId := conversationId
  role := input.role
  seq := nextMessageSeq priorCount
  content := input.content
  providerId := input.providerId
  realizationRef := input.realizationRef
  streamRef := input.streamRef
  createdAt := timeOf now

def priorCount (idx : Option ChatIndex) (priorMessages : List ChatMessage) : ℕ :=
  match idx with
  | some i => i.count
  | none => priorMessages.length

/-- The critical section of an append, once it knows what the conversation holds. -/
def writeMessage (mint : Mint) (now : ℕ) (input : AppendInput) (conv : ChatConversation) (idx : Option ChatIndex)
    (priorMessages : List ChatMessage) : Handler Appended := do
  if priorCount idx priorMessages ≥ historyCap then
    throw (appendOp ++ ": conversation " ++ key conv.id ++ " reached the 200-message " ++
      (if idx.isSome then "indexed" else "scan") ++ " cap — compaction/retention revisit trigger (D-335/D-378), " ++
        "refusing fail-closed")
  else
    let id ← liftM (chatMessageId (.string (minted "msg" mint)))
    let message := appended mint now input conv.id (priorCount idx priorMessages)
    let rev ← portCall (.append chatNs (key id.1) message.value (messageMeta message))
    let indexId ← liftM (chatIndexId conv.id)
    let index := nextChatIndex conv.id idx priorMessages ⟨message.id, message.seq.1⟩
    let _ ← portCall (.append chatNs (key indexId) index.value (indexMeta conv.id))
    return { messageId := message.id, rev, seq := message.seq.1 }

def chatAppend (mint : Mint) (now : ℕ) (payload : Value) : Handler Appended := do
  let input ← liftM (parseAppendInput payload)
  let (conv, _) ← mustLoadConversation input.conversationId.1
  let idx ← loadIndex appendOp conv.id
  match idx with
  | some i => writeMessage mint now input conv (some i) []
  | none => do
    let priorMessages ← loadConversationMessages input.conversationId.1
    writeMessage mint now input conv none priorMessages

def refusalDetail (conv : ChatConversation) (caller : JsString) : String :=
  "cross-principal read refused: conversation " ++ key conv.id ++ " belongs to " ++ toText conv.principal.1 ++
    ", caller presented " ++ toText caller ++
      " (D-379 single-principal fence, Phase 1 — sharing reopens only by a new decision record)"

def refusalRow (now : ℕ) (conv : ChatConversation) (caller : JsString) : Value :=
  .object [(ofText "conversationId", .string conv.id), (ofText "owner", .string conv.principal.1),
    (ofText "caller", .string caller), (ofText "op", jsText historyOp), (ofText "at", .number (.ofInt now))]

def refusalMeta (conv : ChatConversation) : Value :=
  .object [(ofText "type", jsText "principal-refusal"), (ofText "conversationId", .string conv.id)]

/-- A read under another principal than the owner's is refused, and the attempt is recorded. -/
def chatHistory (mint : Mint) (now : ℕ) (payload : Value) : Handler (PrincipalRefusal ⊕ History) := do
  let input ← liftM (parseHistoryInput payload)
  let (conv, _) ← mustLoadConversation input.conversationId.1
  match input.principal.filter fun p => p.1 ≠ conv.principal.1 with
  | some caller => do
    let rev ← portCall (.append chatNs (key (minted "refusal" mint)) (refusalRow now conv caller.1) (refusalMeta conv))
    return .inl { detail := refusalDetail conv caller.1, ledgerId := minted "refusal" mint, ledgerRev := rev }
  | none => do
    let idx ← loadIndex historyOp conv.id
    let messages ← match idx with
      | some i => fetchByIndex i
      | none => do
        let scanned ← loadConversationMessages input.conversationId.1
        pure (orderMessages scanned)
    let limit := input.limit.getD messages.length
    return .inr { conversation := conv, messages := messages.take limit, total := messages.length }

inductive ChatCall
  | openChat (mint : Mint) (now : ℕ) (payload : Value)
  | append (mint : Mint) (now : ℕ) (payload : Value)
  | history (mint : Mint) (now : ℕ) (payload : Value)

inductive ChatResult
  | opened (r : Opened)
  | appended (r : Appended)
  | history (r : PrincipalRefusal ⊕ History)

def handle : ChatCall → Process Request Reply (Except String ChatResult)
  | .openChat mint now payload => (chatOpen mint now payload).run.bind fun r => .done (r.map .opened)
  | .append mint now payload => (chatAppend mint now payload).run.bind fun r => .done (r.map .appended)
  | .history mint now payload => (chatHistory mint now payload).run.bind fun r => .done (r.map .history)

/-- The conversation whose appends a call waits for: an append with a proper payload takes the chain of its own. -/
def chainOf : ChatCall → Option (Id "conv")
  | .append _ _ payload => (parseAppendInput payload).toOption.map AppendInput.conversationId
  | _ => none

end Operations

end VivimOmega.Chat

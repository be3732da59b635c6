import VivimOmega.Vault.Port
import VivimOmega.Library.Json.Reading

/-! Messages of the file-backed email provider, and its two operations that write a message back. -/

namespace VivimOmega.Email

open Library Library.Json Contracts Vault

def emailNs : String := "email"

section Messages

def maxLength : ℕ := 2000

/-- A checked string field. -/
abbrev Str (allowEmpty : Bool) := {s : JsString // (allowEmpty = true ∨ s ≠ []) ∧ s.length ≤ maxLength}

def requireStr (op field : String) (value : Value) (allowEmpty : Bool) : Except String (Str allowEmpty) :=
  match value with
  | .string s =>
    if hempty : allowEmpty = true ∨ s ≠ [] then
      if hlength : s.length ≤ maxLength then return ⟨s, hempty, hlength⟩
      else throw (op ++ ": " ++ field ++ " exceeds 2000 chars")
    else throw (op ++ ": " ++ field ++ " must be non-empty")
  | _ => throw (op ++ ": " ++ field ++ " must be a string")

structure MessageFlags where
  seen : Bool
  flagged : Bool
  draft : Bool
  deriving DecidableEq

structure Message where
  id : Str false
  threadId : Str false
  folder : Str false
  sender : Str false
  recipient : Str false
  subject : Str true
  body : Str true
  sentAt : ℕ
  flags : MessageFlags
  deriving DecidableEq

def isObject : Value → Bool
  | .object _ => true
  | .array _ => true
  | _ => false

def isRecord : Value → Bool
  | .object _ => true
  | _ => false

def requireFlag (op key : String) (flags : Value) : Except String Bool :=
  match optionalProperty flags key with
  | .bool b => return b
  | _ => throw (op ++ ": flags." ++ key ++ " must be a boolean")

def requireSentAt (op : String) (value : Value) : Except String ℕ :=
  let refusal := op ++ ": sentAt must be a non-negative integer (epoch ms)"
  match value with
  | .number n =>
    match n.toInt? with
    | some (.ofNat t) => return t
    | _ => throw refusal
  | _ => throw refusal

/-- Whatever the vault returns must be a message. -/
def asMessage (op : String) (value : Value) : Except String Message := do
  require (isObject value) (op ++ ": stored object is not a message")
  let id ← requireStr op "id" (optionalProperty value "id") false
  let threadId ← requireStr op "threadId" (optionalProperty value "threadId") false
  let folder ← requireStr op "folder" (optionalProperty value "folder") false
  let sender ← requireStr op "from" (optionalProperty value "from") false
  let recipient ← requireStr op "to" (optionalProperty value "to") false
  let subject ← requireStr op "subject" (optionalProperty value "subject") true
  let body ← requireStr op "body" (optionalProperty value "body") true
  let sentAt ← requireSentAt op (optionalProperty value "sentAt")
  let flags := optionalProperty value "flags"
  require (isRecord flags) (op ++ ": flags must be an object")
  let seen ← requireFlag op "seen" flags
  let flagged ← requireFlag op "flagged" flags
  let draft ← requireFlag op "draft" flags
  return { id, threadId, folder, sender, recipient, subject, body, sentAt, flags := { seen, flagged, draft } }

def MessageFlags.value (f : MessageFlags) : Value :=
  .object [(ofText "seen", .bool f.seen), (ofText "flagged", .bool f.flagged), (ofText "draft", .bool f.draft)]

/-- A message as it is appended. -/
def Message.value (m : Message) : Value :=
  .object [(ofText "id", .string m.id.1), (ofText "threadId", .string m.threadId.1),
    (ofText "folder", .string m.folder.1), (ofText "from", .string m.sender.1), (ofText "to", .string m.recipient.1),
    (ofText "subject", .string m.subject.1), (ofText "body", .string m.body.1),
    (ofText "sentAt", .number (.ofInt m.sentAt)), (ofText "flags", m.flags.value)]

def messageMeta : Value := .object [(ofText "type", jsText "message")]

def applySeen (m : Message) : Message := { m with flags := { m.flags with seen := true } }

def applyMove (m : Message) (folder : Str false) : Message := { m with folder }

lemma requireStr_str (op field : String) {allowEmpty : Bool} (s : Str allowEmpty) :
    requireStr op field (.string s.1) allowEmpty = .ok s := by
  rw [requireStr, dif_pos s.2.1, dif_pos s.2.2]
  rfl

/-- A message is read back as it was written. -/
lemma asMessage_value (op : String) (m : Message) : asMessage op m.value = .ok m := by
  have hid : optionalProperty m.value "id" = .string m.id.1 := rfl
  have hthread : optionalProperty m.value "threadId" = .string m.threadId.1 := rfl
  have hfolder : optionalProperty m.value "folder" = .string m.folder.1 := rfl
  have hfrom : optionalProperty m.value "from" = .string m.sender.1 := rfl
  have hto : optionalProperty m.value "to" = .string m.recipient.1 := rfl
  have hsubject : optionalProperty m.value "subject" = .string m.subject.1 := rfl
  have hbody : optionalProperty m.value "body" = .string m.body.1 := rfl
  have hsent : optionalProperty m.value "sentAt" = .number (.ofInt m.sentAt) := rfl
  have hflags : optionalProperty m.value "flags" = m.flags.value := rfl
  have htime : requireSentAt op (.number (.ofInt m.sentAt)) = .ok m.sentAt := by
    rw [requireSentAt, toInt?_ofInt]
    rfl
  have hseen : requireFlag op "seen" m.flags.value = .ok m.flags.seen := rfl
  have hflagged : requireFlag op "flagged" m.flags.value = .ok m.flags.flagged := rfl
  have hdraft : requireFlag op "draft" m.flags.value = .ok m.flags.draft := rfl
  have hobject : isObject m.value = true := rfl
  have hrecord : isRecord m.flags.value = true := rfl
  rw [asMessage]
  simp only [hid, hthread, hfolder, hfrom, hto, hsubject, hbody, hsent, hflags, htime, hseen, hflagged, hdraft, hobject,
    hrecord, requireStr_str, require, if_true]
  rfl

lemma requireStr_op (op op' field : String) (v : Value) (allowEmpty : Bool) :
    (requireStr op field v allowEmpty).toOption = (requireStr op' field v allowEmpty).toOption := by
  cases v with
  | string s =>
    simp only [requireStr]
    split_ifs <;> rfl
  | _ => rfl

lemma requireFlag_op (op op' key : String) (v : Value) : (requireFlag op key v).toOption = (requireFlag op' key v).toOption := by
  rw [requireFlag, requireFlag]
  cases optionalProperty v key <;> rfl

lemma requireSentAt_op (op op' : String) (v : Value) : (requireSentAt op v).toOption = (requireSentAt op' v).toOption := by
  cases v with
  | number n =>
    simp only [requireSentAt]
    cases n.toInt? with
    | none => rfl
    | some i => cases i <;> rfl
  | _ => rfl

/-- The operation only shows in the texts of the refusals. -/
lemma asMessage_op (op op' : String) (v : Value) : (asMessage op v).toOption = (asMessage op' v).toOption := by
  simp only [asMessage, toOption_bind, requireStr_op op op', requireFlag_op op op', requireSentAt_op op op',
    require_toOption]

end Messages

section Handlers

structure ReadResult where
  message : Message
  rev : ℕ
  seenMarked : Bool

structure MoveResult where
  messageId : Str false
  rev : ℕ
  folder : Str false
  changed : Bool

def readId (payload : Value) : Except String JsString :=
  match optionalProperty payload "id" with
  | .string (u :: rest) => return u :: rest
  | _ => throw "message.read@1: id must be a non-empty string"

/-- Marks the message seen with a revision of its own, unless it is. -/
def messageRead (payload : Value) : Handler ReadResult := do
  let id ← readId payload
  let got ← vaultCall (.get emailNs (toText id))
  let message ← asMessage "message.read@1" got.data
  if message.flags.seen then return { message, rev := got.rev, seenMarked := false }
  else
    let updated := applySeen message
    let rev ← vaultCall (.append emailNs (toText id) updated.value messageMeta)
    return { message := updated, rev, seenMarked := true }

def barOrNul (u : UInt16) : Bool := u = 0 || u = 124

def validateMovePayload (op : String) (payload : Value) : Except String (Str false × Str false) := do
  require (isRecord payload) (op ++ ": payload must be an object")
  let id ← requireStr op "id" (optionalProperty payload "id") false
  let folder ← requireStr op "folder" (optionalProperty payload "folder") false
  require (!folder.1.any barOrNul) (op ++ ": folder must not contain '|' or NUL")
  return (id, folder)

/-- Appends a revision in the other folder, unless the message is there. -/
def messageMove (payload : Value) : Handler MoveResult := do
  let (id, folder) ← validateMovePayload "message.move@1" payload
  let got ← vaultCall (.get emailNs (toText id.1))
  let message ← asMessage "message.move@1" got.data
  if message.folder = folder then return { messageId := id, rev := got.rev, folder, changed := false }
  else
    let rev ← vaultCall (.append emailNs (toText id.1) (applyMove message folder).value messageMeta)
    return { messageId := id, rev, folder, changed := true }

inductive MessageCall
  | read (payload : Value)
  | move (payload : Value)

inductive MessageResult
  | read (r : ReadResult)
  | move (r : MoveResult)

def handle : MessageCall → Process Request Reply (Except String MessageResult)
  | .read payload => (messageRead payload).run.bind fun r => .done (r.map .read)
  | .move payload => (messageMove payload).run.bind fun r => .done (r.map .move)

end Handlers

end VivimOmega.Email

import VivimOmega.Vault.Port
import VivimOmega.Library.Json.Reading
import VivimOmega.Nlcl.Text

/-! The rules of the director: what is accepted, how it is stored, and the operations that write it. -/

namespace VivimOmega.Director

open Library Library.Json Contracts Vault Nlcl

section Vocabulary

def automationNs : String := "automation"

def rulePrefix : String := "rule:"

def triggerEvent : JsString := ofText "message.received"

def actionOp : JsString := ofText "message.send@1"

def contactPrefix : JsString := ofText "contact:"

def isDigit (u : UInt16) : Bool := 48 ≤ u && u ≤ 57

def isOpUnit (u : UInt16) : Bool := isAlnum u || u = 46

/-- `/^[a-z0-9.]+@[0-9]+$/` -/
def isOpId (s : JsString) : Bool :=
  s.takeWhile isOpUnit ≠ [] &&
    match s.dropWhile isOpUnit with
    | 64 :: major => major ≠ [] && major.all isDigit
    | _ => false

/-- `/^contact:[a-z0-9]+(?:-[a-z0-9]+)*$/` -/
def isContactId (s : JsString) : Bool :=
  contactPrefix.isPrefixOf s &&
    ((s.drop contactPrefix.length).splitOnP (· = dash)).all fun part => part ≠ [] && part.all isAlnum

end Vocabulary

section Shapes

/-- What triggers a rule: a message from a contact, or from anyone. -/
structure RuleWhen where
  sender : Option {s : JsString // isContactId s = true}

structure RuleThen where
  op : {s : JsString // s = actionOp}
  payload : List (JsString × Value)

structure RuleInput where
  event : RuleWhen
  action : RuleThen
  messageFromTrigger : Bool

structure RuleData where
  id : JsString
  event : RuleWhen
  action : RuleThen
  enabled : Bool
  summary : {s : JsString // s ≠ []}
  createdAt : ℕ

def RuleWhen.value (w : RuleWhen) : Value :=
  .object [(ofText "event", .string triggerEvent),
    (ofText "from", (w.sender.map fun s => Value.string s.1).getD .null)]

def RuleThen.value (t : RuleThen) : Value :=
  .object [(ofText "op", .string t.op.1), (ofText "payload", .object t.payload)]

/-- A rule as it is appended. -/
def RuleData.value (r : RuleData) : Value :=
  .object [(ofText "id", .string r.id), (ofText "when", r.event.value), (ofText "then", r.action.value),
    (ofText "enabled", .bool r.enabled), (ofText "summary", .string r.summary.1),
    (ofText "createdAt", .number (.ofInt r.createdAt))]

def ruleMeta : Value := .object [(ofText "type", jsText "rule")]

end Shapes

section Validation

def isRecord : Value → Bool
  | .object _ => true
  | _ => false

def requireObject (op : String) (v : Value) : Except String Unit :=
  require (isRecord v) (op ++ ": payload must be an object")

def requireEvent (op : String) (v : Value) : Except String Unit :=
  let refusal : Except String Unit := do
    let text ← shown v
    throw (op ++ ": when.event must be \"message.received\" (v1 event vocabulary, got " ++ text ++ ")")
  match v with
  | .string s => if s = triggerEvent then return () else refusal
  | _ => refusal

def requireSender (op : String) (v : Value) : Except String RuleWhen :=
  let refusal : Except String RuleWhen := do
    let text ← shown v
    throw (op ++ ": when.from must be a contact id \"contact:<slug>\" or null (anyone), got " ++ text)
  match v with
  | .undefined => return ⟨none⟩
  | .null => return ⟨none⟩
  | .string s => if h : isContactId s = true then return ⟨some ⟨s, h⟩⟩ else refusal
  | _ => refusal

def requireActionOp (op : String) (v : Value) : Except String {s : JsString // s = actionOp} :=
  let refusal : Except String {s : JsString // s = actionOp} := do
    let text ← shown v
    throw (op ++ ": then.op must match /^[a-z0-9.]+@[0-9]+$/, got " ++ text)
  match v with
  | .string s =>
    if isOpId s then
      if h : s = actionOp then return ⟨s, h⟩
      else throw (op ++ ": then.op must be \"message.send@1\" in v1 — the only action op the director executes " ++
        "(vocabulary boundary, got \"" ++ toText s ++ "\")")
    else refusal
  | _ => refusal

def requireActionPayload (op : String) (v : Value) : Except String (List (JsString × Value)) :=
  match v with
  | .object members => return members
  | _ => throw (op ++ ": then.payload must be an object")

def isTrue : Value → Bool
  | .bool b => b
  | _ => false

def validateRuleInput (op : String) (payload : Value) : Except String RuleInput := do
  requireObject op payload
  let whenValue := optionalProperty payload "when"
  let thenValue := optionalProperty payload "then"
  requireObject (op ++ ": when") whenValue
  requireObject (op ++ ": then") thenValue
  requireEvent op (optionalProperty whenValue "event")
  let event ← requireSender op (optionalProperty whenValue "from")
  let actionOp ← requireActionOp op (optionalProperty thenValue "op")
  let actionPayload ← requireActionPayload op (optionalProperty thenValue "payload")
  return { event, action := ⟨actionOp, actionPayload⟩
           messageFromTrigger := isTrue (optionalProperty (.object actionPayload) "messageFromTrigger") }

def asSummary : Value → Option {s : JsString // s ≠ []}
  | .string (u :: rest) => some ⟨u :: rest, List.cons_ne_nil u rest⟩
  | _ => none

def asTime : Value → Option ℕ
  | .number n =>
    match n.toInt? with
    | some (.ofNat t) => some t
    | _ => none
  | _ => none

def asBool : Value → Option Bool
  | .bool b => some b
  | _ => none

/-- A stored row is a rule under its own id, or nothing. -/
def asRule (op : String) (id : JsString) (v : Value) : Option RuleData :=
  if isRecord v then
    match optionalProperty v "id" with
    | .string s =>
      if s = id then do
        let input ← (validateRuleInput op
          (.object [(ofText "when", optionalProperty v "when"), (ofText "then", optionalProperty v "then")])).toOption
        let enabled ← asBool (optionalProperty v "enabled")
        let summary ← asSummary (optionalProperty v "summary")
        let createdAt ← asTime (optionalProperty v "createdAt")
        return { id, event := input.event, action := input.action, enabled, summary, createdAt }
      else none
    | _ => none
  else none

lemma requireSender_value (op : String) (w : RuleWhen) :
    requireSender op ((w.sender.map fun s => Value.string s.1).getD .null) = .ok w := by
  obtain ⟨sender⟩ := w
  cases sender with
  | none => rfl
  | some s => exact dif_pos s.2

lemma requireActionOp_value (op : String) (a : {s : JsString // s = actionOp}) :
    requireActionOp op (.string a.1) = .ok a := by
  obtain ⟨s, rfl⟩ := a
  have hop : isOpId actionOp = true := by decide
  rw [requireActionOp]
  simp only [hop, if_true, dite_true]
  rfl

lemma validateRuleInput_value (op : String) (w : RuleWhen) (t : RuleThen) :
    validateRuleInput op (.object [(ofText "when", w.value), (ofText "then", t.value)]) =
      .ok ⟨w, t, isTrue (optionalProperty (.object t.payload) "messageFromTrigger")⟩ := by
  have hwhen : optionalProperty (.object [(ofText "when", w.value), (ofText "then", t.value)]) "when" = w.value := rfl
  have hthen : optionalProperty (.object [(ofText "when", w.value), (ofText "then", t.value)]) "then" = t.value := rfl
  have hevent : requireEvent op (optionalProperty w.value "event") = .ok () := by
    have hread : optionalProperty w.value "event" = .string triggerEvent := rfl
    rw [hread, requireEvent]
    exact if_pos rfl
  have hsender : requireSender op (optionalProperty w.value "from") = .ok w := requireSender_value op w
  have hop : requireActionOp op (optionalProperty t.value "op") = .ok t.op := requireActionOp_value op t.op
  have hpayload : requireActionPayload op (optionalProperty t.value "payload") = .ok t.payload := rfl
  have hrecord : requireObject (op ++ ": when") w.value = .ok () := rfl
  have hrecord' : requireObject (op ++ ": then") t.value = .ok () := rfl
  have hobject : requireObject op (.object [(ofText "when", w.value), (ofText "then", t.value)]) = .ok () := rfl
  rw [validateRuleInput, hobject]
  simp only [ok_bind, hwhen, hthen, hrecord, hrecord', hevent, hsender, hop, hpayload]
  rfl

lemma asSummary_string (s : {s : JsString // s ≠ []}) : asSummary (.string s.1) = some s := by
  obtain ⟨s, hs⟩ := s
  cases s with
  | nil => exact absurd rfl hs
  | cons u rest => rfl

/-- A rule is read back as it was written. -/
lemma asRule_value (op : String) (r : RuleData) : asRule op r.id r.value = some r := by
  have hid : optionalProperty r.value "id" = .string r.id := rfl
  have hwhen : optionalProperty r.value "when" = r.event.value := rfl
  have hthen : optionalProperty r.value "then" = r.action.value := rfl
  have henabled : asBool (optionalProperty r.value "enabled") = some r.enabled := rfl
  have hsummary : asSummary (optionalProperty r.value "summary") = some r.summary := by
    have hread : optionalProperty r.value "summary" = .string r.summary.1 := rfl
    rw [hread]
    exact asSummary_string r.summary
  have htime : asTime (optionalProperty r.value "createdAt") = some r.createdAt := by
    have hread : optionalProperty r.value "createdAt" = .number (.ofInt r.createdAt) := rfl
    rw [hread, asTime, toInt?_ofInt]
  have hinput : (validateRuleInput op (.object [(ofText "when", r.event.value), (ofText "then", r.action.value)])) =
      .ok ⟨r.event, r.action, isTrue (optionalProperty (.object r.action.payload) "messageFromTrigger")⟩ :=
    validateRuleInput_value op r.event r.action
  rw [asRule, if_pos (show isRecord r.value = true from rfl), hid]
  simp only [if_true]
  rw [hwhen, hthen, hinput, henabled, hsummary, htime]
  rfl

end Validation

section Ids

def senderKey (w : RuleWhen) : String :=
  match w.sender with
  | none => "any"
  | some s => toText (s.1.drop contactPrefix.length)

def ruleSlug (w : RuleWhen) : String := rulePrefix ++ senderKey w ++ "-forward"

/-- The first of base, base-2, base-3, … that is free. -/
def nextFreeRuleId (base : String) (occupied : List String) : Except String String :=
  if base ∈ occupied then
    match ((List.range' 2 9999).map fun n => base ++ "-" ++ toString n).find? (· ∉ occupied) with
    | some candidate => return candidate
    | none => throw "director.rule@1: rule id space exhausted (10000 collisions)"
  else return base

lemma nextFreeRuleId_free {base : String} {occupied : List String} {id : String}
    (h : nextFreeRuleId base occupied = .ok id) : id ∉ occupied := by
  rw [nextFreeRuleId] at h
  split_ifs at h with hbase
  · split at h
    · rename_i candidate hfind
      obtain rfl := Except.ok.inj h
      have hfree := List.find?_some hfind
      exact of_decide_eq_true hfree
    · cases h
  · obtain rfl := Except.ok.inj h
    exact hbase

lemma nextFreeRuleId_base {base : String} {occupied : List String} {id : String}
    (h : nextFreeRuleId base occupied = .ok id) : ∃ suffix, id = base ++ suffix := by
  rw [nextFreeRuleId] at h
  split_ifs at h with hbase
  · split at h
    · rename_i candidate hfind
      obtain rfl := Except.ok.inj h
      obtain ⟨n, _, rfl⟩ := List.mem_map.mp (List.mem_of_find?_eq_some hfind)
      exact ⟨"-" ++ toString n, String.append_assoc⟩
    · cases h
  · obtain rfl := Except.ok.inj h
    exact ⟨"", (String.append_empty).symm⟩

/-- The id that is picked from a query is free in the vault that answered. -/
lemma picked_free {log : Log} {rows : List Listed} {w : RuleWhen} {id : String}
    (hrows : log.answer (.query automationNs (some rulePrefix)) = .ok rows)
    (hid : nextFreeRuleId (ruleSlug w) (rows.map Listed.id) = .ok id) : log.rev automationNs id = 0 := by
  obtain ⟨suffix, rfl⟩ := nextFreeRuleId_base hid
  have hfree := nextFreeRuleId_free hid
  obtain rfl := Except.ok.inj hrows
  rw [List.map_map] at hfree
  have hslug : ruleSlug w ++ suffix = rulePrefix ++ (senderKey w ++ "-forward" ++ suffix) := by
    rw [ruleSlug]
    simp only [String.append_assoc]
  by_contra hne
  apply hfree
  rw [hslug] at hne ⊢
  have hmem := mem_selected (fun hnil => hne (congrArg List.length hnil))
  exact List.mem_map.mpr ⟨_, hmem, rfl⟩

end Ids

section Operations

variable (U : Unicode)

/-- The label of who triggers a rule. -/
def triggerLabel (w : RuleWhen) : JsString :=
  match w.sender with
  | none => ofText "anyone"
  | some s => prettifyLocalPart U (s.1.drop contactPrefix.length)

def actionSummary (t : RuleThen) : JsString :=
  match optionalProperty (.object t.payload) "to" with
  | .string address =>
    if (64 : UInt16) ∈ address then ofText "send to " ++ prettifyLocalPart U (address.takeWhile (· ≠ 64))
    else ofText "run " ++ t.op.1
  | _ => ofText "run " ++ t.op.1

def ruleSummary (w : RuleWhen) (t : RuleThen) : {s : JsString // s ≠ []} :=
  ⟨ofText "When " ++ triggerLabel U w ++ ofText " messages me, " ++ actionSummary U t, fun h => by
    rw [List.append_eq_nil_iff, List.append_eq_nil_iff, List.append_eq_nil_iff] at h
    exact absurd h.1.1.1 (by decide)⟩

structure Created where
  ruleId : String
  rev : ℕ
  summary : JsString
  op : JsString

/-- The id is picked from a query, and the rule is appended under it. -/
def directorRule (now : ℕ) (payload : Value) : Handler Created := do
  let input ← validateRuleInput "director.rule@1" payload
  let rows ← vaultCall (.query automationNs (some rulePrefix))
  let ruleId ← nextFreeRuleId (ruleSlug input.event) (rows.map Listed.id)
  let data : RuleData :=
    { id := ofText ruleId, event := input.event, action := input.action, enabled := true
      summary := ruleSummary U input.event input.action, createdAt := now }
  let rev ← vaultCall (.append automationNs ruleId data.value ruleMeta)
  return { ruleId, rev, summary := data.summary.1, op := input.action.op.1 }

def registryCap : ℕ := 200

inductive Registry
  | listed (rules : List RuleData)
  | flipped (rule : RuleData) (rev : ℕ) (changed : Bool)

/-- The rules of the rows, where a row that is not a rule is skipped. -/
def listRules : List Listed → Handler (List RuleData)
  | [] => return []
  | row :: rest => do
    let got ← vaultCall (.get automationNs row.id)
    let rules ← listRules rest
    return (asRule "director.registry@1" (ofText row.id) got.data).toList ++ rules

def requireAction (v : Value) : Except String Bool :=
  let refusal : Except String Bool := do
    let text ← shown v
    throw ("director.registry@1: action must be \"enable\" or \"disable\" (got " ++ text ++ ")")
  match v with
  | .string s => if s = ofText "enable" then return true else if s = ofText "disable" then return false else refusal
  | _ => refusal

def requireRuleId (v : Value) : Except String JsString :=
  let refusal : Except String JsString := do
    let text ← shown v
    throw ("director.registry@1: ruleId must be a rule id (\"rule:*\", got " ++ text ++ ")")
  match v with
  | .string s => if (ofText rulePrefix).isPrefixOf s then return s else refusal
  | _ => refusal

def noRule (id : String) (f : Failure) : String :=
  "director.registry@1: no rule " ++ id ++ " — " ++ failed (.get automationNs id) f

/-- Enabling and disabling append the rule as it was read, with the flag set. -/
def flipRule (enabled : Bool) (ruleId : JsString) : Handler Registry := do
  match ← call (.get automationNs (toText ruleId)) with
  | .error f => throw (noRule (toText ruleId) f)
  | .ok got =>
    match asRule "director.registry@1" ruleId got.data with
    | none => throw ("director.registry@1: no rule " ++ toText ruleId ++ " (not found or malformed)")
    | some rule =>
      if rule.enabled = enabled then return .flipped rule got.rev false
      else
        let flipped := { rule with enabled }
        let rev ← vaultCall (.append automationNs (toText ruleId) flipped.value ruleMeta)
        return .flipped flipped rev true

def requireFilter (v : Value) : Except String Unit :=
  let refusal : Except String Unit := do
    let text ← shown v
    throw ("director.registry@1: payload must be \x7bfilter: \"rules\"\x7d or " ++
      "\x7baction: \"enable\"|\"disable\", ruleId\x7d (got filter " ++ text ++ ")")
  match v with
  | .string s => if s = ofText "rules" then return () else refusal
  | _ => refusal

def directorRegistry (payload : Value) : Handler Registry := do
  requireObject "director.registry@1" payload
  match optionalProperty payload "action" with
  | .undefined => do
    requireFilter (optionalProperty payload "filter")
    let rows ← vaultCall (.query automationNs (some rulePrefix))
    let rules ← listRules (rows.take registryCap)
    return .listed rules
  | action => do
    let enabled ← requireAction action
    let ruleId ← requireRuleId (optionalProperty payload "ruleId")
    flipRule enabled ruleId

end Operations

end VivimOmega.Director

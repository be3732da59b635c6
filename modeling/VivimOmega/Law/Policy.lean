import VivimOmega.Library.Json.Reading

/-! The policy document and its interpreter. A document is a value as it came: the shipped one and a shadow
are read by the same code, which throws where a row is not what it should be. -/

namespace VivimOmega.Law

open Library Library.Json

section Texts

def isText (v : Value) (s : String) : Bool :=
  match v with
  | .string t => t = ofText s
  | _ => false

def star : UInt16 := 0x2A

def endsWithStar (pattern : JsString) : Bool := pattern.getLast? = some star

def opMatches (pattern op : JsString) : Bool :=
  pattern = [star] || pattern = op || (endsWithStar pattern && pattern.dropLast.isPrefixOf op)

end Texts

section Keys

/-- What every object has without having been given it. -/
def objectPrototype : List String :=
  ["constructor", "hasOwnProperty", "isPrototypeOf", "propertyIsEnumerable", "toLocaleString", "toString",
    "valueOf", "__proto__", "__defineGetter__", "__defineSetter__", "__lookupGetter__", "__lookupSetter__"]

mutual

/-- Of values that come from JSON, an object turns into no string if it has a member `toString`,
which is no function. -/
def hasText : Value → Bool
  | .array items => haveTexts items
  | .object members => ofText "toString" ∉ members.map Prod.fst
  | _ => true

def haveTexts : List Value → Bool
  | [] => true
  | v :: rest => hasText v && haveTexts rest

end

mutual

def stringText : Value → JsString
  | .undefined => ofText "undefined"
  | .null => ofText "null"
  | .bool b => ofText (if b then "true" else "false")
  | .bigint n => ofText (toString n)
  | .number n => ofText (jsString (.number n))
  | .string s => s
  | .array items => [0x2C].intercalate (itemTexts items)
  | .object _ => ofText "[object Object]"

def itemTexts : List Value → List JsString
  | [] => []
  | .undefined :: rest => [] :: itemTexts rest
  | .null :: rest => [] :: itemTexts rest
  | v :: rest => stringText v :: itemTexts rest

end

/-- `String(v)`, which a template literal and a computed key ask for. -/
def toJsString (v : Value) : Except String JsString :=
  if hasText v then return stringText v
  else throw "TypeError: Cannot convert object to primitive value"

/-- `v[key]` of an object: what it does not have itself may be a function that every object has. -/
def index (v key : Value) : Except String Value := do
  let name ← toJsString key
  match v with
  | .undefined => throw "TypeError: undefined is not an object"
  | .null => throw "TypeError: null is not an object"
  | .object members =>
    match members.find? fun m => m.1 = name with
    | some m => return m.2
    | none => return if name ∈ objectPrototype.map ofText then .object [] else .undefined
  | _ => return .undefined

end Keys

section Interpreter

structure RiskEntry where
  op : JsString
  risk : Value

def readRiskEntry (r : Value) : Except String RiskEntry := do
  let op ← property r "op"
  match op with
  | .string s => return ⟨s, optionalProperty r "risk"⟩
  | _ => throw "TypeError: r.op.endsWith is not a function"

structure CompiledRiskIndex where
  exact : List RiskEntry
  prefixes : List RiskEntry

/-- The exact rows in their order, and the patterns with the longest first. -/
def riskIndex (doc : Value) : Except String CompiledRiskIndex := do
  let table ← property doc "riskTable"
  let rows ← iterate table
  let entries ← rows.mapM readRiskEntry
  return ⟨entries.filter fun r => !endsWithStar r.op,
    (entries.filter fun r => endsWithStar r.op).insertionSort fun a b => b.op.length ≤ a.op.length⟩

/-- The risk by a compiled index. An exact row without a risk decides nothing. -/
def lookupRisk (idx : CompiledRiskIndex) (defaultRisk : Value) (op : JsString) : Value :=
  match (idx.exact.find? fun r => r.op = op).map RiskEntry.risk |>.filter fun v => !v.isUndefined with
  | some risk => risk
  | none =>
    match idx.prefixes.find? fun r => opMatches r.op op with
    | some r => r.risk
    | none => defaultRisk

def classifyRisk (doc : Value) (op : JsString) : Except String Value := do
  let idx ← riskIndex doc
  return lookupRisk idx (optionalProperty doc "defaultRisk") op

/-- `rule.match`, where every string has a method of that name. -/
def matchOf (rule : Value) : Except String Value :=
  match rule with
  | .string _ => return .object []
  | _ => property rule "match"

def ruleMatches (rule : Value) (principal op : JsString) : Except String Bool := do
  let m ← matchOf rule
  let who ← property m "principal"
  match who with
  | .undefined => matchesOp m
  | .string s => if s = principal then matchesOp m else return false
  | _ => return false
where
  matchesOp (m : Value) : Except String Bool :=
    match optionalProperty m "op" with
    | .undefined => return true
    | .string pattern => return opMatches pattern op
    | _ => throw "TypeError: pattern.endsWith is not a function"

/-- The first of the deny rows that matches, or of the others. -/
def firstMatch (deny : Bool) (principal op : JsString) : List Value → Except String (Option Value)
  | [] => return none
  | rule :: rest => do
    let decision ← property rule "decision"
    if isText decision "deny" = deny then
      let found ← ruleMatches rule principal op
      if found then return some rule else firstMatch deny principal op rest
    else firstMatch deny principal op rest

def actionOf (decision reason : Value) : Value :=
  .object [(ofText "decision", decision), (ofText "journal", .bool true), (ofText "reason", reason)]

/-- Deny rows first, then the other rows, then the default for the risk class. -/
def evalPolicy (doc : Value) (principal op : JsString) : Except String Value := do
  let ruleTable ← property doc "rules"
  let rules ← iterate ruleTable
  let denying ← firstMatch true principal op rules
  match denying with
  | some rule => do
    let _ ← classifyRisk doc op
    return actionOf (jsText "deny") (optionalProperty rule "reason")
  | none => do
    let other ← firstMatch false principal op rules
    match other with
    | some rule => do
      let _ ← classifyRisk doc op
      return actionOf (optionalProperty rule "decision") (optionalProperty rule "reason")
    | none => do
      let risk ← classifyRisk doc op
      index (optionalProperty doc "riskDefaults") risk

end Interpreter

section Shipped

def riskRow (op risk : String) : Value := .object [(ofText "op", jsText op), (ofText "risk", jsText risk)]

def riskDefaultRow (decision : String) (journal : Bool) (reason : String) : Value :=
  .object [(ofText "decision", jsText decision), (ofText "journal", .bool journal),
    (ofText "reason", jsText reason)]

def policyRule (field value decision reason : String) : Value :=
  .object [(ofText "match", .object [(ofText field, jsText value)]), (ofText "decision", jsText decision),
    (ofText "reason", jsText reason)]

def riskTable : List Value :=
  [riskRow "risky.op@1" "EXTERNAL_MUTATION", riskRow "risky.read@1" "READ",
    riskRow "vault.roundtrip@1" "EXTERNAL_MUTATION", riskRow "providers.session.start@1" "MUTATION",
    riskRow "vault.*" "MUTATION", riskRow "note.*" "MUTATION", riskRow "credential.put@1" "MUTATION",
    riskRow "chat.open@1" "MUTATION", riskRow "chat.append@1" "MUTATION",
    riskRow "run.process.call@1" "MUTATION", riskRow "forge.author.init@1" "MUTATION",
    riskRow "intent.submit@1" "MUTATION", riskRow "intent.resolve@1" "MUTATION",
    riskRow "intent.step.execute@1" "MUTATION", riskRow "intent.cancel@1" "MUTATION",
    riskRow "intent.resolution@1" "MUTATION", riskRow "law.principal.register@1" "MUTATION",
    riskRow "law.principal.retire@1" "MUTATION", riskRow "law.audit.drain@1" "MUTATION"]

def riskDefaults : Value :=
  .object [(ofText "READ", riskDefaultRow "allow" false "read-class: not gated"),
    (ofText "MUTATION", riskDefaultRow "allow" true "mutation-class: allowed and journaled"),
    (ofText "EXTERNAL_MUTATION",
      riskDefaultRow "require-consent" true "external mutation: consent required")]

def rules : List Value :=
  [policyRule "principal" "omega.attacker" "deny"
      "principal deny-listed (adversarial fixture, Ω0 runtime suite)",
    policyRule "op" "credential.put@1" "require-consent"
      ("storing a credential is the security-sensitive bar — consent required even though the class is " ++
        "vault-internal (D-356)")]

def LAW_POLICY_V1 : Value :=
  .object [(ofText "policyId", jsText "law.policy"), (ofText "version", jsText "1.8.0"),
    (ofText "description", jsText ("Ω1 baseline: risk-class defaults, mutation journaling, principal " ++
      "deny-list, credential-consent rule")),
    (ofText "riskTable", .array riskTable), (ofText "defaultRisk", jsText "EXTERNAL_MUTATION"),
    (ofText "riskDefaults", riskDefaults), (ofText "rules", .array rules)]

example : (evalPolicy LAW_POLICY_V1 (ofText "user:alice") (ofText "vault.roundtrip@1")).toOption.map
    (fun action => isText (optionalProperty action "decision") "require-consent") = some true := by
  decide

end Shipped

end VivimOmega.Law

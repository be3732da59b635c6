import VivimOmega.Law.Ceremony
import VivimOmega.Library.Process
import VivimOmega.Library.Text

/-! A console command: it is interpreted, submitted, gated, routed and resolved, one root call after the other. -/

namespace VivimOmega.Console

open Library Library.Json Law

section Calls

inductive Answer
  | ok (value : Value)
  | failed (error : String) (detail : Option JsString)

def Answer.isOk : Answer → Bool
  | ok _ => true
  | failed _ _ => false

/-- What a root call is told, and whether the op came to its implementation: without that nothing is ok. -/
structure Reply where
  answer : Answer
  delivered : Bool
  sound : answer.isOk = true → delivered = true

inductive Resolution
  | ambiguous | refused | executed
  deriving DecidableEq

def Resolution.text : Resolution → String
  | ambiguous => "AMBIGUOUS"
  | refused => "REFUSED"
  | executed => "EXECUTED"

def fields (members : List (String × Value)) : Value := .object (members.map fun m => (ofText m.1, m.2))

def optionalField (name : String) (value : Option Value) : List (String × Value) :=
  (value.map fun v => (name, v)).toList

/-- The calls of `execute`, by their places in it. -/
inductive ConsoleCall
  | snapshot
  | submit (type : String) (payload interpretation : Value)
  | ruleCheck
  | gate (op : String) (payload : Value) (intentRef : JsString) (payloadHash : Option JsString)
  | routed (op : String) (payload : Value)
  | record (resolution : Resolution) (row : List (String × Value))

/-- The op and the payload of a root call. -/
def ConsoleCall.request : ConsoleCall → String × Value
  | snapshot => ("mind.snapshot@1", .object [])
  | submit type payload interpretation =>
    ("intent.submit@1", fields [("type", jsText type), ("payload", payload), ("interpretation", interpretation)])
  | ruleCheck => ("law.check@1", fields [("principal", jsText "vivim.director"), ("op", jsText "message.send@1")])
  | gate op payload intentRef payloadHash =>
    ("law.check@1", fields ([("principal", jsText "root"), ("op", jsText op), ("payload", payload),
      ("intentRef", .string intentRef)] ++ optionalField "payloadHash" (payloadHash.map .string)))
  | routed op payload => (op, payload)
  | record resolution row => ("intent.resolution@1", fields (("resolution", jsText resolution.text) :: row))

abbrev ConsoleM := Throwing ConsoleCall fun _ => Reply

end Calls

section Interpretations

structure IR where
  intent : String
  payload : Value

/-- `reading` and the other fields of an interpretation that rows and submits carry. -/
structure Interpretation where
  ir : Option IR
  canonical : Value
  reading : Value
  confidence : Value
  status : Value

structure Refused where
  op : String
  consentId : Value
  detail : Value

structure RuleActionConsent where
  consentId : Value
  decision : Value

structure ExecuteOutcome where
  interpretation : Interpretation
  worldV : Value
  surface : Option Value := none
  executed : Bool := false
  op : Option String := none
  result : Option Value := none
  refused : Option Refused := none
  ruleActionConsent : Option RuleActionConsent := none
  intentRef : Option JsString := none
  payloadHash : Option JsString := none
  resolution : Option Resolution := none
  resolutionRecorded : Option Bool := none

/-- The language and the display of the surface's own intents, which no row or call depends on. -/
structure Language where
  interpret : JsString → Value → Except String Interpretation
  surfacePayload : Option IR → Interpretation → Value → Except String Value

end Interpretations

section Reading

/-- `/consent_[0-9a-f]+/` at the start of a text. -/
def consentHere (s : JsString) : Option JsString :=
  let hex := (s.drop "consent_".length).takeWhile isHexUnit
  if (ofText "consent_").isPrefixOf s && !hex.isEmpty then some (ofText "consent_" ++ hex) else none

def extractConsentId : JsString → Option JsString
  | [] => none
  | u :: rest => (consentHere (u :: rest)).or (extractConsentId rest)

def hasWords (text : JsString) : Bool := text.any fun u => !Text.isBlank (unitChar u)

/-- The intent that an accepted submit names, and its digest. -/
def submitted (value : Value) : Option (JsString × Option JsString) :=
  let o := optionalProperty value "value"
  if isText (optionalProperty value "status") "OK" && !isFalsy o then
    match optionalProperty o "intentId", optionalProperty o "payloadHash" with
    | .string intentId, .string payloadHash => some (intentId, some payloadHash)
    | .string intentId, _ => some (intentId, none)
    | _, _ => none
  else none

/-- `find` by the op of a row. -/
def findOp (op : String) : List Value → Except String (Option Value)
  | [] => return none
  | row :: rest => do
    let found ← property row "op"
    if isText found op then return some row else findOp op rest

/-- `ops.find((o) => o.op === op)?.risk` -/
def riskIn (ops : Value) (op : String) : Except String Value :=
  match ops with
  | .array rows => do
    match ← findOp op rows with
    | none => return .undefined
    | some row => property row "risk"
  | _ => throw "TypeError: w.ops.find is not a function"

def catalogRisk (w : Value) (op : String) : Except String Value := do
  let ops ← property w "ops"
  riskIn ops op

def preGate (risk : Value) : Bool := risk.isUndefined || isText risk "MUTATION" || isText risk "EXTERNAL_MUTATION"

end Reading

section Execution

def world : ConsoleM Value := do
  let r ← Throwing.ask .snapshot
  match r.answer with
  | .failed error detail => throw ("mind.snapshot@1 " ++ error ++ ": " ++ toText (detail.getD []))
  | .ok value => liftM (property value "world")

def recordResolution (resolution : Resolution) (row : List (String × Value)) : ConsoleM Bool := do
  let r ← Throwing.ask (.record resolution row)
  return match r.answer with
    | .failed _ _ => false
    | .ok value => isText (optionalProperty value "status") "OK"

/-- A row for a command that means nothing, or that only the assistant could help with. -/
def recordAmbiguous (text : JsString) (interp : Interpretation) (out : ExecuteOutcome) : ConsoleM ExecuteOutcome :=
  if hasWords text && (interp.ir.isNone || interp.ir.any fun ir => ir.intent = "surface.assist") then do
    let recorded ← recordResolution .ambiguous (("text", .string text) ::
      (match interp.reading with
        | .null => []
        | reading => [("reading", reading)]) ++ [("interpStatus", interp.status)])
    return { out with resolution := some .ambiguous, resolutionRecorded := some recorded }
  else return out

/-- The intents that the surface serves itself, and commands that mean nothing. -/
def serveSurface (language : Language) (text : JsString) (interp : Interpretation) (w : Value) (out : ExecuteOutcome) :
    ConsoleM ExecuteOutcome := do
  let out ← recordAmbiguous text interp out
  let surface ← liftM (language.surfacePayload interp.ir interp w)
  return { out with surface := some surface }

def submitIntent (text : JsString) (interp : Interpretation) (ir : IR) (out : ExecuteOutcome) : ConsoleM ExecuteOutcome := do
  let sub ← Throwing.ask (.submit ir.intent ir.payload (fields [("text", .string text), ("canonical", interp.canonical),
    ("reading", interp.reading), ("confidence", interp.confidence), ("status", interp.status)]))
  match sub.answer with
  | .failed _ _ => return out
  | .ok value =>
    match submitted value with
    | none => return out
    | some (intentId, payloadHash) => return { out with intentRef := some intentId, payloadHash }

/-- The consent that a rule's action will ask for. -/
def checkRuleAction (ir : IR) (out : ExecuteOutcome) : ConsoleM ExecuteOutcome := do
  if ir.intent = "director.rule@1" then
    let check ← Throwing.ask .ruleCheck
    match check.answer with
    | .failed _ _ => return out
    | .ok d => do
      let consentId ← liftM (property d "consentId")
      let consentId := match consentId with
        | .undefined => .string (consentIdFor (ofText "vivim.director") (ofText "message.send@1"))
        | .null => .string (consentIdFor (ofText "vivim.director") (ofText "message.send@1"))
        | id => id
      return { out with ruleActionConsent := some ⟨consentId, optionalProperty d "decision"⟩ }
  else return out

def hashField (out : ExecuteOutcome) : List (String × Value) := optionalField "payloadHash" (out.payloadHash.map .string)

/-- The refusal of the pre-gate: what the law decided, with its reason. -/
def refuse (text : JsString) (ir : IR) (intentRef : JsString) (d : Value) (out : ExecuteOutcome) :
    ConsoleM ExecuteOutcome := do
  let consentId := optionalProperty d "consentId"
  let reason := match optionalProperty d "reason" with
    | .undefined => jsText ""
    | .null => jsText ""
    | reason => reason
  let recorded ← recordResolution .refused ([("intentRef", .string intentRef)] ++ hashField out ++
    [("decision", optionalProperty d "decision")] ++
    (if consentId.isUndefined then [] else [("consentId", consentId)]) ++ [("text", .string text)])
  return { out with
    refused := some ⟨ir.intent, consentId, reason⟩
    resolution := some .refused
    resolutionRecorded := some recorded }

def refuses (decision : Value) : Bool := isText decision "deny" || isText decision "require-consent"

/-- How the answer to the routed call resolves the command: what names a consent is a refusal. -/
def resolutionOf : Answer → Resolution
  | .ok _ => .executed
  | .failed _ detail => if (extractConsentId (detail.getD [])).isSome then .refused else .executed

def outcomeField : Answer → Value
  | .ok _ => fields [("ok", .bool true)]
  | .failed error detail =>
    fields [("ok", .bool false), ("error", jsText error), ("detail", (detail.map Value.string).getD .null)]

def routedOutcome (ir : IR) (out : ExecuteOutcome) : Answer → ExecuteOutcome
  | .ok value => { out with op := some ir.intent, executed := true, result := some value }
  | .failed error detail =>
    { out with
      op := some ir.intent
      refused := some ⟨ir.intent, ((extractConsentId (detail.getD [])).map Value.string).getD .undefined,
        .string (detail.getD (ofText error))⟩ }

/-- The routed call, and the row that it is recorded with. -/
def route (text : JsString) (ir : IR) (out : ExecuteOutcome) : ConsoleM ExecuteOutcome := do
  let r ← Throwing.ask (.routed ir.intent ir.payload)
  let resolved := { routedOutcome ir out r.answer with resolution := some (resolutionOf r.answer) }
  match out.intentRef with
  | none => return resolved
  | some intentRef => do
    let recorded ← recordResolution (resolutionOf r.answer) ([("intentRef", .string intentRef)] ++ hashField out ++
      [("text", .string text), ("outcome", outcomeField r.answer)])
    return { resolved with resolutionRecorded := some recorded }

/-- A failed pre-gate lets the routed call decide. -/
def gateAndRoute (text : JsString) (ir : IR) (w : Value) (out : ExecuteOutcome) : ConsoleM ExecuteOutcome := do
  let risk ← liftM (catalogRisk w ir.intent)
  match out.intentRef with
  | some intentRef =>
    if preGate risk then do
      let gate ← Throwing.ask (.gate ir.intent ir.payload intentRef out.payloadHash)
      match gate.answer with
      | .failed _ _ => route text ir out
      | .ok d => do
        let decision ← liftM (property d "decision")
        if refuses decision then refuse text ir intentRef d out else route text ir out
    else route text ir out
  | none => route text ir out

def execute (language : Language) (text : JsString) : ConsoleM ExecuteOutcome := do
  let seen ← world
  let interp ← liftM (language.interpret text seen)
  let w ← world
  let v ← liftM (property w "v")
  let out : ExecuteOutcome := { interpretation := interp, worldV := v }
  match interp.ir with
  | none => serveSurface language text interp w out
  | some ir =>
    if Text.startsWith ir.intent "surface." then serveSurface language text interp w out
    else do
      let out ← submitIntent text interp ir out
      let out ← checkRuleAction ir out
      gateAndRoute text ir w out

end Execution

end VivimOmega.Console

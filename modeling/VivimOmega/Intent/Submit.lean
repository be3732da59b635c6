import VivimOmega.Vault.Port
import VivimOmega.Library.Json.Reading
import VivimOmega.Library.Sha256
import VivimOmega.Library.Text

/-! Intents as the shim delivers their submission, and whose they are said to be. -/

namespace VivimOmega.Intent

open Library Library.Json Library.Sha256 Vault

section Shim

/-- What the host says of a delivery. -/
structure CallMeta where
  caller : String
  causationId : String

/-- What `ctx.meta` finds on the context of a handler. -/
structure PluginContext where
  metaData? : Option CallMeta

inductive Outcome
  | ok (value : Value)
  | failed (error : String)

/-- The context of a compartment is built at its `init` message: manifest, capabilities, config, port and log. -/
def shimContext : PluginContext := ⟨none⟩

/-- The shim runs a handler with the context of the compartment, and hands it the delivery beside that. -/
def deliver (handler : Value → PluginContext → CallMeta → Handler Outcome) (payload : Value) (callMeta : CallMeta) :
    Handler Outcome :=
  handler payload shimContext callMeta

end Shim

section Row

def nsIntent : String := "intent"

def isHexUnit (u : UInt16) : Bool := (48 ≤ u && u ≤ 57) || (97 ≤ u && u ≤ 102)

def intentId (hex : JsString) : Except String JsString :=
  if 16 ≤ hex.length ∧ hex.length ≤ 64 ∧ hex.all isHexUnit = true then return ofText "intent:" ++ hex
  else throw "intentId: hex must be 16-64 lowercase hex characters"

/-- Lower case where it can give a hex digit. -/
def lowerUnit (u : UInt16) : UInt16 := if 65 ≤ u && u ≤ 90 then u + 32 else u

/-- The hex of an intent, where `drawn` is what two draws of `Math.random` give. -/
def hexOf (p : Value) (drawn : JsString) : JsString :=
  let hex := match optionalProperty p "intentId" with
    | .string (u :: rest) => u :: rest
    | _ => drawn
  let hex := if 16 ≤ hex.length then hex.take 32 else hex ++ hex ++ hex
  (hex.take 32).map lowerUnit

def sourceKindOf (sourcePrincipal : String) : String :=
  if Text.startsWith sourcePrincipal "agent:" then "agent"
  else if Text.startsWith sourcePrincipal "user:" then "user"
  else if sourcePrincipal = "root" || Text.startsWith sourcePrincipal "µhost" then "host"
  else "composition"

def isNullish : Value → Bool
  | .undefined => true
  | .null => true
  | _ => false

def orElse (v w : Value) : Value := if isNullish v then w else v

def stringOr (v w : Value) : Value :=
  match v with
  | .string s => .string s
  | _ => w

def numberOr (v w : Value) : Value :=
  match v with
  | .number n => .number n
  | _ => w

def interpretationOf (p : Value) : Option Value :=
  let given := optionalProperty p "interpretation"
  match optionalProperty given "text" with
  | .string text => some (.object [(ofText "text", .string text),
      (ofText "canonical", stringOr (optionalProperty given "canonical") .null),
      (ofText "reading", stringOr (optionalProperty given "reading") .null),
      (ofText "confidence", numberOr (optionalProperty given "confidence") (.number .zero)),
      (ofText "status", stringOr (optionalProperty given "status") (jsText "ok"))])
  | _ => none

def constraintsOf (p : Value) : Value :=
  let constraints := optionalProperty p "constraints"
  let idempotencyKey := orElse (optionalProperty constraints "idempotencyKey") (optionalProperty p "idempotencyKey")
  if isFalsy constraints then .undefined
  else .object [(ofText "deadlineMs", optionalProperty constraints "deadlineMs"),
    (ofText "idempotencyKey", stringOr idempotencyKey .undefined)]

structure Intent where
  id : JsString
  type : JsString
  sourcePrincipal : String
  sourceKind : String
  payload : Value
  payloadHash : String
  interpretation : Option Value
  constraints : Value
  causationId : String
  evidenceId : JsString
  createdAt : ℕ

def initStep : Value :=
  .object [(ofText "stepId", jsText "init"), (ofText "capability", jsText ""), (ofText "branch", jsText "human"),
    (ofText "kind", jsText "HUMAN"), (ofText "dependsOn", .array []), (ofText "status", jsText "pending")]

def Intent.evidence (row : Intent) : Value :=
  .object [(ofText "ns", jsText nsIntent), (ofText "id", .string row.evidenceId), (ofText "rev", .number (.ofInt 1)),
    (ofText "meta", .object [(ofText "phase", jsText "D-389")])]

/-- An intent as it is appended. -/
def Intent.value (row : Intent) : Value :=
  .object ([(ofText "id", .string row.id), (ofText "type", .string row.type),
    (ofText "sourcePrincipal", jsText row.sourcePrincipal), (ofText "sourceKind", jsText row.sourceKind),
    (ofText "payload", row.payload), (ofText "payloadHash", jsText row.payloadHash)] ++
    (row.interpretation.toList.map fun i => (ofText "interpretation", i)) ++
    [(ofText "constraints", row.constraints), (ofText "causationId", jsText row.causationId),
    (ofText "state", jsText "submitted"), (ofText "steps", .array [initStep]),
    (ofText "evidence", .array [row.evidence]), (ofText "createdAt", .number (.ofInt row.createdAt))])

def intentMeta : Value := .object [(ofText "type", jsText "intent"), (ofText "phase", jsText "D-389")]

def typeOf (p : Value) : Except String (Option JsString) := do
  match ← property p "type" with
  | .string (u :: rest) => return some (u :: rest)
  | _ => return none

/-- The row of a submission with a proper type. -/
def rowOf (p : Value) (type : JsString) (ctx : PluginContext) (drawn : JsString) (now : ℕ) :
    Except String Intent := do
  let sourcePrincipal := (ctx.metaData?.map CallMeta.caller).getD "unknown"
  let hex := hexOf p drawn
  let id ← intentId hex
  let payload := orElse (optionalProperty p "payload") p
  let payloadText ← stringify payload
  return {
    id, type, sourcePrincipal
    sourceKind := sourceKindOf sourcePrincipal
    payload
    payloadHash := "sha256:" ++ sha256Text payloadText
    interpretation := interpretationOf p
    constraints := constraintsOf p
    causationId := (ctx.metaData?.map CallMeta.causationId).getD "unknown"
    evidenceId := hex
    createdAt := now }

def submitted (row : Intent) : Value :=
  .object [(ofText "intentId", .string row.id), (ofText "state", jsText "submitted"),
    (ofText "sourcePrincipal", jsText row.sourcePrincipal), (ofText "sourceKind", jsText row.sourceKind),
    (ofText "payloadHash", jsText row.payloadHash),
    (ofText "canonical", (row.interpretation.map fun i => optionalProperty i "canonical").getD .null)]

/-- `intent.submit@1`; the object is named by the part of the row's id after the colon. -/
def intentSubmit (drawn : JsString) (now : ℕ) (payload : Value) (ctx : PluginContext) (_ : CallMeta) :
    Handler Outcome := do
  match ← typeOf payload with
  | none => return .failed "intent.submit: type must be a non-empty string"
  | some type =>
    let row ← rowOf payload type ctx drawn now
    let q := Request.append nsIntent (toText row.evidenceId) row.value intentMeta
    match ← call q with
    | .error f => return .failed ("intent.submit: vault write failed: vivim-intent " ++ failed q f)
    | .ok _ => return .ok (submitted row)

end Row

section Provenance

structure Delivery where
  payload : Value
  drawn : JsString
  now : ℕ
  callMeta : CallMeta

def handle (d : Delivery) : Process Request Reply (Except String Outcome) :=
  (deliver (intentSubmit d.drawn d.now) d.payload d.callMeta).run

abbrev Intents := Pool Request Reply (Except String Outcome) Log Fault Delivery

/-- Submissions that the shim delivers, over a vault that holds `log` at first. -/
def intents (log : Log) : System Intents (PoolEvent Fault Delivery) :=
  Pool.system port handle fun init => init = log

lemma sourcePrincipal_value (row : Intent) :
    stringOf (optionalProperty row.value "sourcePrincipal") = some row.sourcePrincipal := by
  have hread : optionalProperty row.value "sourcePrincipal" = jsText row.sourcePrincipal := rfl
  rw [hread, jsText, stringOf, toText_ofText]

lemma causationId_value (row : Intent) :
    stringOf (optionalProperty row.value "causationId") = some row.causationId := by
  have hread : optionalProperty row.value "causationId" = jsText row.causationId := by
    rw [Intent.value]
    cases row.interpretation <;> rfl
  rw [hread, jsText, stringOf, toText_ofText]

/-- On the context of a compartment there is no caller to read. -/
lemma rowOf_unknown {p : Value} {type drawn : JsString} {now : ℕ} {row : Intent}
    (h : rowOf p type shimContext drawn now = .ok row) : row.sourcePrincipal = "unknown" ∧ row.causationId = "unknown" := by
  rw [rowOf] at h
  obtain ⟨id, _, h⟩ := bind_eq_ok h
  obtain ⟨text, _, h⟩ := bind_eq_ok h
  obtain rfl := Except.ok.inj h
  exact ⟨rfl, rfl⟩

/-- A submission asks for one append, of its own row. -/
lemma handle_asks {d : Delivery} {answers : List ((q : Request) × Reply q)} {q : Request}
    {next : Reply q → Process Request Reply (Except String Outcome)} (h : (handle d).After answers (.ask q next)) :
    ∃ type row, rowOf d.payload type shimContext d.drawn d.now = .ok row ∧
      q = .append nsIntent (toText row.evidenceId) row.value intentMeta := by
  suffices hh : ∀ p, (handle d).After answers p → (∃ r, p = .done r) ∨
      ∃ type row next, rowOf d.payload type shimContext d.drawn d.now = .ok row ∧
        p = .ask (.append nsIntent (toText row.evidenceId) row.value intentMeta) next ∧ ∀ r, ∃ x, next r = .done x by
    obtain ⟨r, hr⟩ | ⟨type, row, next', hrow, hask, _⟩ := hh _ h
    · cases hr
    · cases hask
      exact ⟨type, row, hrow, rfl⟩
  clear h
  intro p hp
  induction hp with
  | nil =>
    rw [handle, deliver, intentSubmit, run_lift]
    cases typeOf d.payload with
    | error e => exact Or.inl ⟨_, rfl⟩
    | ok found =>
      cases found with
      | none => exact Or.inl ⟨_, rfl⟩
      | some type =>
        dsimp only
        rw [run_lift]
        cases hrow : rowOf d.payload type shimContext d.drawn d.now with
        | error e => exact Or.inl ⟨_, rfl⟩
        | ok row =>
          refine Or.inr ⟨type, row, _, hrow, rfl, fun r => ?_⟩
          cases r with
          | error f => exact ⟨_, rfl⟩
          | ok a => exact ⟨_, rfl⟩
  | snoc a _ ih =>
    obtain ⟨r, hr⟩ | ⟨_, _, next, _, hask, hnext⟩ := ih
    · cases hr
    · cases hask
      exact Or.inl (hnext a)

/-- The rows that were stored, each with its delivery. -/
def stored (s : Intents) : List (Delivery × Revision) :=
  s.history.filterMap fun v => (written v).map fun r => (v.call, r)

/-- Each row names the caller and the causation id of its delivery. -/
def Attributed (s : Intents) : Prop :=
  ∀ x ∈ stored s, stringOf (optionalProperty x.2.data "sourcePrincipal") = some x.1.callMeta.caller ∧
    stringOf (optionalProperty x.2.data "causationId") = some x.1.callMeta.causationId

/-- No caller writes over the intent of another. -/
def Undisplaced (s : Intents) : Prop :=
  (stored s).Pairwise fun x y => x.2.id = y.2.id → x.1.callMeta.caller = y.1.callMeta.caller

def Provenance (s : Intents) : Prop := Attributed s ∧ Undisplaced s

lemma stored_unknown {log : Log} {ok : Intents → PoolEvent Fault Delivery → Prop} {s : Intents}
    (h : (intents log).Reachable ok s) {x : Delivery × Revision} (hx : x ∈ stored s) :
    stringOf (optionalProperty x.2.data "sourcePrincipal") = some "unknown" ∧
      stringOf (optionalProperty x.2.data "causationId") = some "unknown" := by
  obtain ⟨v, hv, hwritten⟩ := List.mem_filterMap.mp hx
  obtain ⟨r, hr, rfl⟩ := Option.map_eq_some_iff.mp hwritten
  obtain ⟨_, hq⟩ := written_eq hr
  obtain ⟨answers, next, hask⟩ := Pool.served h v hv
  obtain ⟨type, row, hrow, happend⟩ := handle_asks hask
  obtain ⟨hprincipal, hcausation⟩ := rowOf_unknown hrow
  obtain ⟨_, _, hdata, _⟩ := Request.append.inj (hq.symm.trans happend)
  rw [hdata, sourcePrincipal_value, causationId_value, hprincipal, hcausation]
  exact ⟨rfl, rfl⟩

/-- The rows of the vault say who submitted them where that is nobody: a caller and a causation id that are unknown. -/
theorem provenance_iff {log : Log} {s : Intents} (h : (intents log).Reachable System.free s) :
    s.store = log ++ (stored s).map Prod.snd ∧
      (Provenance s ↔ ∀ x ∈ stored s, x.1.callMeta.caller = "unknown" ∧ x.1.callMeta.causationId = "unknown") := by
  refine ⟨?_, fun hp x hx => ?_, fun hall => ⟨fun x hx => ?_, ?_⟩⟩
  · have hrows : (stored s).map Prod.snd = s.history.filterMap written := by
      rw [stored, List.map_filterMap]
      congr 1
      funext v
      cases written v <;> rfl
    rw [hrows]
    exact store_eq h
  · obtain ⟨hcaller, hcausation⟩ := hp.1 x hx
    obtain ⟨hunknown, hunknown'⟩ := stored_unknown h hx
    exact ⟨Option.some.inj (hcaller.symm.trans hunknown), Option.some.inj (hcausation.symm.trans hunknown')⟩
  · obtain ⟨hcaller, hcausation⟩ := hall x hx
    rw [hcaller, hcausation]
    exact stored_unknown h hx
  · refine List.Pairwise.imp_of_mem (fun hx hy _ _ => ?_) (List.pairwise_of_forall fun _ _ => trivial)
    rw [(hall _ hx).1, (hall _ hy).1]

/-- A submission that names the intent itself. -/
def submission (caller causationId type : String) : Delivery :=
  { payload := .object [(ofText "type", jsText type), (ofText "intentId", jsText "00112233445566778899aabbccddeeff")]
    drawn := ofText "4f9d1c0b2a7e8653", now := 0, callMeta := { caller, causationId } }

/-- One caller submits an intent, and another submits one under the same id. -/
def contested : List (PoolEvent Fault Delivery) :=
  [.call (submission "user:ada" "c_1" "report"), .serve 0 .none, .call (submission "agent:mallory" "c_2" "payment"),
    .serve 1 .none]

def start : Intents := { store := [], tasks := [], history := [] }

lemma contested_stored : ∃ s, (intents []).Reachable System.free s ∧
    (stored s).map (fun x => (x.1.callMeta.caller, x.2.id)) =
      [("user:ada", "00112233445566778899aabbccddeeff"), ("agent:mallory", "00112233445566778899aabbccddeeff")] ∧
    ∃ x ∈ stored s, x.1.callMeta.caller = "user:ada" := by
  have hinit : (intents []).init start := ⟨rfl, rfl, rfl⟩
  have hrun : ((intents []).exec System.free start contested).map (fun s =>
      decide ((stored s).map (fun x => (x.1.callMeta.caller, x.2.id)) =
        [("user:ada", "00112233445566778899aabbccddeeff"), ("agent:mallory", "00112233445566778899aabbccddeeff")])) =
      some true := by decide
  obtain ⟨s, hs, hf⟩ := System.exec_spec hinit hrun
  have hstored := of_decide_eq_true hf
  have hmem : ("user:ada", "00112233445566778899aabbccddeeff") ∈
      (stored s).map fun x => (x.1.callMeta.caller, x.2.id) := by
    rw [hstored]
    exact List.mem_cons_self
  obtain ⟨x, hx, hcaller⟩ := List.mem_map.mp hmem
  exact ⟨s, hs, hstored, x, hx, (Prod.mk.inj hcaller).1⟩

theorem provenance_lost : ∃ s, (intents []).Reachable System.free s ∧ ¬ Attributed s ∧ ¬ Undisplaced s := by
  obtain ⟨s, hs, hstored, x, hx, hcaller⟩ := contested_stored
  refine ⟨s, hs, fun hattributed => ?_, fun hkept => ?_⟩
  · have hsame := (hattributed x hx).1.symm.trans (stored_unknown hs hx).1
    rw [hcaller] at hsame
    exact absurd (Option.some.inj hsame) (by decide)
  · have hpairs : ((stored s).map fun x => (x.1.callMeta.caller, x.2.id)).Pairwise fun x y => x.2 = y.2 → x.1 = y.1 :=
      List.pairwise_map.mpr hkept
    rw [hstored] at hpairs
    exact absurd (List.rel_of_pairwise_cons hpairs List.mem_cons_self rfl) (by decide)

theorem provenance_contested : ∃ s, (intents []).Reachable System.free s ∧ (stored s).length = 2 ∧ ¬ Provenance s := by
  obtain ⟨s, hs, hstored, x, hx, hcaller⟩ := contested_stored
  refine ⟨s, hs, ?_, fun hp => ?_⟩
  · have hlength := congrArg List.length hstored
    rwa [List.length_map] at hlength
  · have hunknown := (((provenance_iff hs).2.mp hp) x hx).1
    rw [hcaller] at hunknown
    exact absurd hunknown (by decide)

end Provenance

end VivimOmega.Intent

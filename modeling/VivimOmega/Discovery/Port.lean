import VivimOmega.Discovery.Healing
import VivimOmega.Vault.Port

/-! What the discovery plugins ask of the vault, and the rows that they append. -/

namespace VivimOmega.Discovery

open Library Library.Json Vault

inductive RealizationStatus
  | draft | testing | promoted | degraded | requiresRediscovery
  deriving DecidableEq

inductive ProviderClass
  | simulator | apiNative | browserMediated
  deriving DecidableEq

structure ParserPin where
  providerId : JsString
  archetypeSlug : JsString
  version : JsString
  deriving DecidableEq

/-- An evidence ref of a row, stamped VERIFIED or unmarked. -/
structure ProvenanceRef where
  ref : EvidenceRef
  verified : Bool
  deriving DecidableEq

structure ProviderRealization where
  archetypeSlug : JsString
  providerId : JsString
  providerClass : ProviderClass
  status : RealizationStatus
  discoverySessionRef : Value
  opMapRef : Value
  entityMapRef : Value
  streamRefs : Value
  evidenceRefs : List ProvenanceRef
  supersedes : Option EvidenceRef
  createdAt : Number
  parserPins : List ParserPin

/-- A ref that the vault did not answer. -/
structure Unresolved where
  ref : EvidenceRef
  failure : Failure

structure PromotionReport where
  runId : JsString
  mappingSatisfied : Bool
  evaluation : PromotionEvaluation
  resolutionNotes : List Unresolved

def discoveryNs : JsString := ofText "discovery"

def providersNs : JsString := ofText "providers"

def promotionId (runId : JsString) : JsString := ofText "promotion:" ++ runId

inductive Row
  | promotion (report : PromotionReport) (refs : List EvidenceRef)
  | healing (decision : HealingDecision)
  | realization (id : JsString) (record : ProviderRealization) (refs : List ProvenanceRef)

namespace Row

def ns : Row → JsString
  | promotion .. => discoveryNs
  | healing .. => discoveryNs
  | realization .. => providersNs

def id : Row → JsString
  | promotion report _ => promotionId report.runId
  | healing decision => decision.eventId
  | realization id .. => id

end Row

inductive Request
  | get (ns id : JsString) (rev : Option ℕ)
  | append (row : Row)

structure Got where
  rev : ℕ
  data : Value

def Request.Value : Request → Type
  | .get .. => Got
  | .append _ => ℕ

abbrev Reply (q : Request) := Except Failure q.Value

def Request.op : Request → String
  | .get .. => "vault.get@1"
  | .append _ => "vault.append@1"

abbrev Exchange := (q : Request) × Reply q

abbrev Handler := Throwing Request Reply

/-- A port call whose failure is thrown. -/
def vaultCall (q : Request) : Handler q.Value := do
  match ← Throwing.ask q with
  | .error f => throw ("discovery.verification: " ++ q.op ++ " " ++ errorText f.code ++ ": " ++ f.detail)
  | .ok a => pure a

def archetypeSlugForOp (op : JsString) : Except String JsString :=
  if op = [] then throw "archetypeSlugForOp: op must be a non-empty string"
  else
    let upTo := op.reverse.dropWhile fun u => u ≠ '@'.toNat.toUInt16
    return if upTo.length > 1 then upTo.tail.reverse else op

def colon : UInt16 := ':'.toNat.toUInt16

def providerRealizationId (archetypeSlug providerId : JsString) : Except String JsString :=
  if archetypeSlug = [] then throw "providerRealizationId: archetypeSlug must be a non-empty string"
  else if providerId = [] then throw "providerRealizationId: providerId must be a non-empty string"
  else if colon ∈ archetypeSlug ∨ colon ∈ providerId then
    throw "providerRealizationId: neither part may contain ':' (id grammar)"
  else return ofText "realization:" ++ archetypeSlug ++ [colon] ++ providerId

/-- A realization that a vault call writes. -/
def written (x : Exchange) : Option (JsString × ProviderRealization) :=
  match x.1 with
  | .append (.realization id record _) => some (id, record)
  | _ => none

variable {asks : List Exchange → Request → Prop} {past : List Exchange} {β : Type}
variable {ends : List Exchange → Except String β → Prop}

lemma meets_vaultCall {q : Request} {k : q.Value → Handler β} (hq : asks past q)
    (herror : ∀ f e, ends (past ++ [⟨q, .error f⟩]) (.error e))
    (hok : ∀ a, (k a).run.Meets asks ends (past ++ [⟨q, .ok a⟩])) : (vaultCall q >>= k).run.Meets asks ends past := by
  refine ⟨hq, fun a => ?_⟩
  cases a with
  | error f => exact herror f _
  | ok a => exact hok a

end VivimOmega.Discovery

import VivimOmega.Law.Tokens

/-! The vault objects of the agents: identities, behavior contracts, and the revisions that cite each other. -/

namespace VivimOmega.Agent

open Library Library.Json

section Outcomes

inductive FailStatus
  | unknown | unsupported | refused | evaluationFailed
  deriving DecidableEq

/-- What an op answers when nothing unexpected happens; what is unexpected is thrown. -/
inductive Outcome (α : Type)
  | ok (value : α)
  | fail (status : FailStatus) (reason : String)

end Outcomes

section Records

inductive LifecycleState
  | staged | verified | active | degraded | quarantined | retired
  deriving DecidableEq

def LifecycleState.text : LifecycleState → String
  | staged => "staged"
  | verified => "verified"
  | active => "active"
  | degraded => "degraded"
  | quarantined => "quarantined"
  | retired => "retired"

structure VaultProvenanceRef where
  ns : JsString
  id : JsString
  rev : ℕ
  deriving DecidableEq

structure BehaviorContract where
  id : JsString
  version : JsString
  state : LifecycleState
  forbiddenActions : List JsString
  requiredCapabilities : List JsString
  provenance : List VaultProvenanceRef

structure AgentIdentity where
  id : JsString
  parentId : Option JsString
  behaviorContractId : JsString
  behaviorVersion : JsString
  capabilityToken : JsString
  state : LifecycleState
  createdBy : JsString
  provenance : List VaultProvenanceRef
  deriving DecidableEq

def agentNs : JsString := ofText "agent"

def behaviorNs : JsString := ofText "behavior"

/-- Revisions are counted from one. -/
def revision? {α : Type} (rows : List α) (rev : ℕ) : Option α :=
  match rev with
  | 0 => none
  | n + 1 => rows[n]?

lemma revision?_append {α : Type} {rows more : List α} {rev : ℕ} {row : α} (h : revision? rows rev = some row) :
    revision? (rows ++ more) rev = some row := by
  cases rev with
  | zero => cases h
  | succ n =>
    obtain ⟨hn, _⟩ := List.getElem?_eq_some_iff.mp h
    exact (List.getElem?_append_left hn).trans h

lemma mem_of_revision? {α : Type} {rows : List α} {rev : ℕ} {row : α} (h : revision? rows rev = some row) :
    row ∈ rows := by
  cases rev with
  | zero => cases h
  | succ n => exact List.mem_of_getElem? h

end Records

section Names

def isNameUnit (u : UInt16) : Bool := Law.isWordUnit u || u = Law.dot

def isDigitUnit (u : UInt16) : Bool := 0x30 ≤ u && u ≤ 0x39

def atSign : UInt16 := 0x40

/-- `^([A-Za-z0-9_.-]+)@([0-9]+)$` -/
def nameAtVersion (s : JsString) : Option JsString :=
  match s.splitOn atSign with
  | [name, version] =>
    if name ≠ [] ∧ name.all isNameUnit = true ∧ version ≠ [] ∧ version.all isDigitUnit = true then some name
    else none
  | _ => none

def portText : JsString := ofText "port:"

/-- The scope path that a granted capability covers, and nothing for one that is no port. -/
def portCapToScope (cap : JsString) : Option JsString :=
  if portText.isPrefixOf cap then nameAtVersion (cap.drop portText.length) else none

end Names

end VivimOmega.Agent

import VivimOmega.Contracts.Port
import VivimOmega.Library.OrderedMap

/-! Plugin manifests: what a plugin asks for, never a grant. -/

namespace VivimOmega.Contracts

open Library

inductive RiskClass
  | externalMutation | mutation | read
  deriving DecidableEq

inductive Granularity
  | coarse | atomic
  deriving DecidableEq

def Granularity.text : Granularity → String
  | coarse => "coarse"
  | atomic => "atomic"

structure Contribution where
  id : String
  version : String
  risk : Option RiskClass := none
  priority : Option PortPriority := none

def Contribution.op (c : Contribution) : String := c.id ++ "@" ++ c.version

structure Contributions where
  contract : List Contribution := []
  engine : List Contribution := []
  provider : List Contribution := []

structure DependencyRef where
  ref : String
  range : String

structure PluginManifest where
  id : String
  entry : String
  contributions : Contributions
  dependencies : List DependencyRef := []
  maxConcurrentCalls : Option ℕ := none
  granularity : Option Granularity := none
  extractionCandidate : Option Bool := none

def routableOps (m : PluginManifest) : List String :=
  (m.contributions.contract ++ m.contributions.engine ++ m.contributions.provider).map
    Contribution.op

/-- The contract ops with a declared risk other than `read`. -/
def riskyOps (m : PluginManifest) : OrderedMap String RiskClass :=
  m.contributions.contract.foldl (fun ops c =>
    match c.risk with
    | none => ops
    | some .read => ops
    | some risk => ops.set c.op risk) OrderedMap.empty

end VivimOmega.Contracts

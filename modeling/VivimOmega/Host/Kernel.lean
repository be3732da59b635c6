import VivimOmega.Contracts.Manifest
import VivimOmega.Contracts.Recipe
import VivimOmega.Library.Text

/-! The kernel a booted router carries: the capability graph, the audit chain behind its
edges, the generation registry and the state arbiter, closed by the genesis bootstrap. -/

namespace VivimOmega.Host

open Library Contracts

structure GrantPayload where
  source : String
  target : String
  capability : String
  seq : ℕ
  prevHash : String
  deriving DecidableEq

/-- The vault's key pair with SHA-256 and ed25519 over canonical JSON. -/
structure Signer where
  keyId : String
  publicKey : String
  hashPayload : GrantPayload → String
  signJson : GrantPayload → String
  verifyJson : GrantPayload → String → Bool
  verify_sign : ∀ p, verifyJson p (signJson p) = true

structure SignedGrant where
  payload : GrantPayload
  signature : String
  deriving DecidableEq

structure AuditLog where
  signer : Signer
  entries : List SignedGrant := []

namespace AuditLog

def genesisPrev : String := String.ofList (List.replicate 64 '0')

def headHash (a : AuditLog) : String :=
  match a.entries.getLast? with
  | none => genesisPrev
  | some e => a.signer.hashPayload e.payload

def verify (a : AuditLog) (g : SignedGrant) : Bool := a.signer.verifyJson g.payload g.signature

def record (a : AuditLog) (source target capability : String) : AuditLog × SignedGrant :=
  let payload : GrantPayload :=
    { source, target, capability, seq := a.entries.length, prevHash := a.headHash }
  let grant : SignedGrant := { payload, signature := a.signer.signJson payload }
  ({ a with entries := a.entries ++ [grant] }, grant)

def chainFrom (a : AuditLog) : String → List SignedGrant → Bool
  | _, [] => true
  | expected, e :: rest =>
    e.payload.prevHash = expected && a.verify e && a.chainFrom (a.signer.hashPayload e.payload) rest

def verifyChain (a : AuditLog) : Bool := a.chainFrom genesisPrev a.entries

def exportEntry (g : SignedGrant) : JsValue :=
  .obj [("payload", .obj [("from", .str g.payload.source), ("to", .str g.payload.target),
      ("capability", .str g.payload.capability), ("seq", .num g.payload.seq),
      ("prevHash", .str g.payload.prevHash)]),
    ("signature", .str g.signature)]

def exportChain (a : AuditLog) : JsValue :=
  .obj [("verified", .bool a.verifyChain), ("signerKeyId", .str a.signer.keyId),
    ("publicKey", .str a.signer.publicKey), ("length", .num a.entries.length),
    ("headHash", .str a.headHash), ("entries", .arr (a.entries.map exportEntry))]

end AuditLog

inductive NodeKind
  | principal | capability
  deriving DecidableEq

def NodeKind.text : NodeKind → String
  | principal => "principal"
  | capability => "capability"

inductive EdgeKind
  | offer | hold
  deriving DecidableEq

def EdgeKind.text : EdgeKind → String
  | offer => "offer"
  | hold => "hold"

structure GraphNode where
  id : String
  kind : NodeKind
  granularity : Option Granularity := none
  extractionCandidate : Option Bool := none
  deriving DecidableEq

structure Edge where
  target : String
  capability : String
  kind : EdgeKind
  grant : SignedGrant

def insertOnce (l : List String) (x : String) : List String := if x ∈ l then l else l ++ [x]

lemma mem_insertOnce {l : List String} {x y : String} : y ∈ insertOnce l x ↔ y ∈ l ∨ y = x := by
  unfold insertOnce
  split_ifs with hx
  · constructor
    · exact Or.inl
    · rintro (hy | rfl)
      · exact hy
      · exact hx
  · simp

lemma nodup_insertOnce {l : List String} {x : String} (h : l.Nodup) : (insertOnce l x).Nodup := by
  unfold insertOnce
  split_ifs with hx
  · exact h
  · rw [List.nodup_append']
    exact ⟨h, List.nodup_singleton _, by simpa using hx⟩

structure CapabilityGraph where
  nodes : OrderedMap String GraphNode := .empty
  offerors : OrderedMap String (List String) := .empty
  holders : OrderedMap String (List String) := .empty
  outgoing : OrderedMap String (List String) := .empty
  edges : List Edge := []

namespace CapabilityGraph

def ensureSet (m : OrderedMap String (List String)) (id : String) :
    OrderedMap String (List String) :=
  if m.has id then m else m.set id []

def addTo (m : OrderedMap String (List String)) (id x : String) : OrderedMap String (List String) :=
  m.set id (insertOnce ((m.get? id).getD []) x)

def upsertNode (g : CapabilityGraph) (n : GraphNode) : CapabilityGraph :=
  { g with
    nodes := g.nodes.set n.id n
    offerors := ensureSet g.offerors n.id
    holders := ensureSet g.holders n.id
    outgoing := ensureSet g.outgoing n.id }

/-- Refuses an edge between unknown nodes and an edge whose grant does not verify. -/
def grant (g : CapabilityGraph) (source target capability : String) (signed : SignedGrant)
    (verifies : Bool) (kind : EdgeKind) : Except String CapabilityGraph :=
  if g.nodes.has source = false then .error s!"graph: unknown principal {source}"
  else if g.nodes.has target = false then .error s!"graph: unknown principal {target}"
  else if g.nodes.has capability = false then .error s!"graph: unknown capability {capability}"
  else if verifies = false then
    .error s!"graph: grant signature does not verify — refusing edge {source}→{target}:{capability}"
  else
    .ok { g with
      edges := g.edges ++ [{ target, capability, kind, grant := signed }]
      offerors := if kind = .offer then addTo g.offerors capability target else g.offerors
      holders := if kind = .offer then g.holders else addTo g.holders capability target
      outgoing := addTo g.outgoing target capability }

def whoOffers (g : CapabilityGraph) (capability : String) : List String :=
  (g.offerors.get? capability).getD []

def snapshotNode (n : GraphNode) : JsValue :=
  .obj ([("id", .str n.id), ("kind", .str n.kind.text)] ++
    (match n.granularity with
      | none => []
      | some g => [("granularity", .str g.text)]) ++
    (match n.extractionCandidate with
      | none => []
      | some b => [("extractionCandidate", .bool b)]))

def snapshot (g : CapabilityGraph) : JsValue :=
  .obj [("nodes", .arr (g.nodes.values.map snapshotNode)),
    ("edges", .arr (g.edges.map (fun e => .obj [("to", .str e.target),
      ("capability", .str e.capability), ("kind", .str e.kind.text)])))]

end CapabilityGraph

lemma get?_ensureSet (m : OrderedMap String (List String)) (id x : String) :
    ((CapabilityGraph.ensureSet m id).get? x).getD [] = (m.get? x).getD [] := by
  unfold CapabilityGraph.ensureSet
  split_ifs with hhas
  · rfl
  · rw [OrderedMap.get?_set]
    split_ifs with hx
    · rw [hx, (OrderedMap.has_eq_false m id).mp (Bool.eq_false_iff.mpr hhas)]
      rfl
    · rfl

structure GenerationPin where
  version : String
  impl : String
  deriving DecidableEq

structure ToolRegistry where
  generations : OrderedMap String (List GenerationPin) := .empty

def matchesRange (version range : String) : Bool :=
  if range = "*" || range = "" || range = "latest" then true
  else if Text.endsWith range ".x" then
    Text.before version '.' = Text.sliceTo range (range.toList.length - 2)
  else version = range

namespace ToolRegistry

def publish (t : ToolRegistry) (name version impl : String) : ToolRegistry :=
  { generations :=
      t.generations.set name (((t.generations.get? name).getD []) ++ [{ version, impl }]) }

/-- The newest generation in the declared range. -/
def resolve (t : ToolRegistry) (name range : String) : Option GenerationPin :=
  ((t.generations.get? name).getD []).reverse.find? (fun pin => matchesRange pin.version range)

end ToolRegistry

inductive LockMode
  | shared | exclusive
  deriving DecidableEq

def LockMode.text : LockMode → String
  | shared => "shared"
  | exclusive => "exclusive"

structure Holder where
  principal : String
  mode : LockMode
  deriving DecidableEq

structure StateArbitrator where
  keys : OrderedMap String (List Holder) := .empty

namespace StateArbitrator

def holdersOf (a : StateArbitrator) (key : String) : List Holder := (a.keys.get? key).getD []

def tryAcquire (a : StateArbitrator) (key principal : String) (mode : LockMode) :
    Except String StateArbitrator :=
  let holders := a.holdersOf key
  if holders.any (fun h => h.mode = .exclusive) || (mode = .exclusive && !holders.isEmpty) then
    let named := ", ".intercalate (holders.map (fun h => s!"{h.principal}/{h.mode.text}"))
    .error s!"state key '{key}' held ({named}); '{principal}' must wait"
  else .ok { keys := a.keys.set key (holders ++ [{ principal, mode }]) }

def release (a : StateArbitrator) (key principal : String) : StateArbitrator :=
  match a.keys.get? key with
  | none => a
  | some holders => { keys := a.keys.set key (holders.filter (fun h => h.principal ≠ principal)) }

end StateArbitrator

structure Kernel where
  graph : CapabilityGraph
  audit : AuditLog
  state : StateArbitrator
  tools : ToolRegistry

namespace Kernel

/-- `graph.grant` over the record that `audit.record` has just signed. -/
def grant (k : Kernel) (source target capability : String) (kind : EdgeKind) :
    Except String Kernel :=
  let (audit, signed) := k.audit.record source target capability
  (k.graph.grant source target capability signed (audit.verify signed) kind).map
    (fun graph => { k with audit, graph })

def upsertNode (k : Kernel) (n : GraphNode) : Kernel := { k with graph := k.graph.upsertNode n }

def publish (k : Kernel) (name version impl : String) : Kernel :=
  { k with tools := k.tools.publish name version impl }

lemma grant_ok (k : Kernel) {source target capability : String} (kind : EdgeKind)
    (hs : k.graph.nodes.has source = true) (ht : k.graph.nodes.has target = true)
    (hc : k.graph.nodes.has capability = true) :
    ∃ k', k.grant source target capability kind = .ok k' ∧ k'.graph.nodes = k.graph.nodes := by
  have hv := k.audit.signer.verify_sign
  simp [grant, CapabilityGraph.grant, AuditLog.record, AuditLog.verify, hs, ht, hc, hv, Except.map]

end Kernel

namespace Genesis

def schema := "genesis:schema"
def kernel := "genesis:kernel"
def everyone := "genesis:everyone"
def stateArbitrator := "core:state-arbitrator"
def selfDescribe := "cap:self-describe"

def nodes : List GraphNode :=
  [{ id := schema, kind := .capability },
    { id := kernel, kind := .principal, granularity := some .atomic },
    { id := everyone, kind := .principal },
    { id := stateArbitrator, kind := .principal, granularity := some .atomic,
      extractionCandidate := some false },
    { id := selfDescribe, kind := .capability }]

def closing : List (String × String) := [(kernel, kernel), (kernel, schema)]

end Genesis

def bootstrapKernel (signer : Signer) : Except String Kernel :=
  let empty : Kernel := { graph := {}, audit := { signer }, state := {}, tools := {} }
  Genesis.closing.foldlM (fun k e => k.grant e.1 e.2 Genesis.selfDescribe .hold)
    (Genesis.nodes.foldl Kernel.upsertNode empty)

end VivimOmega.Host

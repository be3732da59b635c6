import VivimOmega.Contracts.Lifecycle
import VivimOmega.Host.Kernel
import VivimOmega.Host.Ports

/-! The port router: registration, token checks, the gate, lazy spawning and host ops, each call
an explicit frame that is resumed when the promise it awaits has settled. -/

namespace VivimOmega.Host

open Library Contracts

/-- `cap` is `none` where the source holds a value that equals no string. -/
structure TokenRecord where
  token : String
  pluginId : String
  cap : Option String
  gen : ℕ
  revoked : Bool := false

structure Authority where
  tokens : OrderedMap String TokenRecord := .empty
  generation : ℕ := 1

structure Routes where
  manifests : OrderedMap String PluginManifest := .empty
  opRoute : OrderedMap String String := .empty
  opRisk : OrderedMap String RiskClass := .empty
  opPriority : OrderedMap String PortPriority := .empty
  kernel : Option Kernel := none
  graphSeen : List String := []

structure DormantEntry where
  entry : CompositionEntry
  manifest : PluginManifest
  tokens : OrderedMap String String
  config : Option JsValue

/-- Where an on-demand spawn is: waiting for its worker, waiting for `ready`, settled (with the
error that rejected it), or past its continuation. -/
inductive SpawnPhase
  | checkout
  | ready
  | settled (err : Option String)
  | over (err : Option String)
  deriving DecidableEq

structure SpawnAttempt where
  id : String
  source : DormantEntry
  phase : SpawnPhase

structure ReadyWaiter where
  attempt : ℕ
  due : ℕ

structure Spawner where
  dormant : OrderedMap String DormantEntry := .empty
  spawning : OrderedMap String ℕ := .empty
  attempts : OrderedMap ℕ SpawnAttempt := .empty
  attemptSeq : ℕ := 0
  readyWaiters : OrderedMap String ReadyWaiter := .empty
  onDemandSpawn : Bool := true

inductive HandleState
  | booting | active | degraded | stopped
  deriving DecidableEq

def HandleState.text : HandleState → String
  | booting => "booting"
  | active => "active"
  | degraded => "degraded"
  | stopped => "stopped"

structure CompartmentHandle where
  state : HandleState := .booting
  calls : ℕ := 0
  crashes : ℕ := 0
  bootedAt : ℕ := 0
  lastError : Option String := none

inductive Caller
  | root
  | compartment (id callId : String)
  deriving DecidableEq

/-- How an asynchronous method ended: with a register, or by throwing. -/
inductive Outcome
  | result (r : PortResult)
  | threw (message : String)

inductive Stage
  | opened
  | gate (p : ℕ)
  | spawn (attempt : ℕ)
  | target (p : ℕ)
  | closed (out : Outcome)

/-- The locals of one run of `dispatch`. -/
structure CallFrame where
  caller : Caller
  principal : String
  impl : String
  op : String
  payload : JsValue
  deadlineMs : ℕ
  onChunk : Bool
  risk : Option RiskClass
  stage : Stage := .opened

def Stage.awaits : Stage → Option ℕ
  | .gate p => some p
  | .target p => some p
  | _ => none

structure PortRouter where
  ports : Ports := {}
  authority : Authority := {}
  routes : Routes := {}
  spawner : Spawner := {}
  compartments : OrderedMap String CompartmentHandle := .empty
  calls : OrderedMap CausationId CallFrame := .empty
  callSeq : ℕ := 0
  rootReplies : List Outcome := []
  journaling : Bool := true
  lawJournal : List (ℕ × List (String × JsValue)) := []

/-! ### Registration -/

namespace Authority

variable (A : Authority)

/-- The names a plain object inherits: read from `HOST_OP_TO_CAP` they yield no capability, but a
value that is not nullish. -/
def inherited : List String :=
  ["constructor", "__defineGetter__", "__defineSetter__", "hasOwnProperty", "__lookupGetter__",
    "__lookupSetter__", "isPrototypeOf", "propertyIsEnumerable", "toString", "valueOf", "__proto__",
    "toLocaleString"]

/-- Alias keys and their guarding capability resolve to the same effective capability. -/
def effectiveCap (key : String) : Option String :=
  if Text.startsWith key "port:" then
    let aliasedOp := Text.sliceFrom key "port:".length
    if aliasedOp ∈ inherited then none else some ((hostCapOf? aliasedOp).getD key)
  else some key

def installToken (pluginId key token : String) : Authority :=
  if A.tokens.has token then A
  else { A with
    tokens := A.tokens.set token
      { token, pluginId, cap := effectiveCap key, gen := A.generation } }

def installAll (pluginId : String) (entries : List (String × String)) : Authority :=
  entries.foldl (fun A e => A.installToken pluginId e.1 e.2) A

def installTokens (pluginId : String) (tokens : OrderedMap String String) : Authority :=
  A.installAll pluginId tokens.entries

/-- Host ops are aliased to the token of the capability that guards them. -/
def aliasHostOps (cap token : String) (tokens : OrderedMap String String) :
    OrderedMap String String :=
  hostOpToCap.foldl (fun m e => if e.2 = cap then m.set ("port:" ++ e.1) token else m) tokens

/-- One turn of the minting loop; an assignment to `__proto__` stores nothing. -/
def mintCap (mint : ℕ → String) (acc : OrderedMap String String × ℕ) (cap : String) :
    OrderedMap String String × ℕ :=
  let token := mint acc.2
  (aliasHostOps cap token (if cap = "__proto__" then acc.1 else acc.1.set cap token), acc.2 + 1)

/-- The tokens of an entry, where `mint n` is the value of the `n`-th call of `mintToken`, and the
number of calls made so far. -/
def mintTokensFor (mint : ℕ → String) (n : ℕ) (entry : CompositionEntry) :
    OrderedMap String String × ℕ :=
  entry.grant.capabilities.foldl (mintCap mint) (.empty, n)

def isHostOp (op : String) : Bool := op ∈ HostOps.all

def hostCapFor (op : String) : String := (hostCapOf? op).getD ""

/-- The error register of a refused token, `none` when the call may proceed. -/
def checkToken (pluginId token op : String) : Option PortResult :=
  match A.tokens.get? token with
  | none => some (.fail .refused "unknown capability token")
  | some rec =>
    if rec.pluginId ≠ pluginId then some (.fail .refused "token not issued to this compartment")
    else if rec.revoked = true then some (.fail .revoked "token revoked")
    else if rec.gen < A.generation then
      some (.fail .revoked s!"generation {rec.gen} revoked (current {A.generation})")
    else if isHostOp op = true then
      if rec.cap ≠ some (hostCapFor op) then some (.fail .scope s!"op {op} requires {hostCapFor op}")
      else none
    else if rec.cap ≠ some ("port:" ++ op) then
      some (.fail .scope s!"op {op} requires capability port:{op}")
    else none

def revokeWhere (f : TokenRecord → Bool) : Authority :=
  { A with
    tokens := A.tokens.mapValues (fun rec => if f rec then { rec with revoked := true } else rec) }

/-- The records a revocation covers: those of the plugin it names, or all if it names none. -/
def covered (pluginId : JsValue) (rec : TokenRecord) : Bool :=
  if pluginId.truthy then decide (pluginId.string? = some rec.pluginId) else true

def affected (pluginId : JsValue) : ℕ :=
  A.tokens.values.countP (fun rec => covered pluginId rec && !rec.revoked)

/-- Scoped: the records of the plugin flip. Unscoped: all flip, and the generation is bumped. -/
def revoke (pluginId : JsValue) : Authority :=
  if pluginId.truthy then A.revokeWhere (covered pluginId)
  else { A.revokeWhere (covered pluginId) with generation := A.generation + 1 }

end Authority

def opName (op : String) : String :=
  match Text.lastIndexOf op '@' with
  | none => op
  | some at_ => if 0 < at_ then Text.sliceTo op at_ else op

def opVersion (op : String) : String :=
  match Text.lastIndexOf op '@' with
  | none => "1"
  | some at_ => if 0 < at_ then Text.sliceFrom op (at_ + 1) else "1"

namespace Kernel

def offer (k : Kernel) (id op : String) : Except String Kernel := do
  let k ← (k.upsertNode { id := op, kind := .capability }).grant id id op .offer
  return k.publish (opName op) (opVersion op) id

def hold (k : Kernel) (id cap : String) : Except String Kernel :=
  let held := if Text.startsWith cap "port:" then Text.sliceFrom cap "port:".length else cap
  let known := if k.graph.nodes.has held then k
    else k.upsertNode { id := held, kind := .capability }
  known.grant id id held .hold

def enter (k : Kernel) (entry : CompositionEntry) (manifest : PluginManifest) :
    Except String Kernel := do
  let k := k.upsertNode
    { id := entry.id, kind := .principal
      granularity := some (manifest.granularity.getD .atomic)
      extractionCandidate := manifest.extractionCandidate }
  let k ← entry.grant.contracts.foldlM (fun k op => k.offer entry.id op) k
  entry.grant.capabilities.foldlM (fun k cap => k.hold entry.id cap) k

end Kernel

namespace Routes

variable (S : Routes)

/-- Nothing to do without a kernel, and once per id. A refused grant would leave the graph as it
was, but no grant of a registration is refused (`Kernel.enter_ok`). -/
def registerGraph (entry : CompositionEntry) (manifest : PluginManifest) : Routes :=
  match S.kernel with
  | none => S
  | some k =>
    if entry.id ∈ S.graphSeen then S
    else
      match k.enter entry manifest with
      | .error _ => { S with graphSeen := S.graphSeen ++ [entry.id] }
      | .ok k' => { S with graphSeen := S.graphSeen ++ [entry.id], kernel := some k' }

def addRoutes (id : String) (ops : List String) : Routes :=
  { S with opRoute := ops.foldl (fun m op => m.set op id) S.opRoute }

def addRisks (manifest : PluginManifest) : Routes :=
  { S with opRisk := (riskyOps manifest).entries.foldl (fun m e => m.set e.1 e.2) S.opRisk }

def addPriorities (manifest : PluginManifest) : Routes :=
  { S with
    opPriority := manifest.contributions.contract.foldl
      (fun m c => m.set c.op (c.priority.getD .normal)) S.opPriority }

/-- The part `register` and `registerDormant` share. -/
def enrol (entry : CompositionEntry) (manifest : PluginManifest) : Routes :=
  ((({ S with manifests := S.manifests.set entry.id manifest } : Routes).addRoutes entry.id
    entry.grant.contracts).addRisks manifest |>.addPriorities manifest).registerGraph entry manifest

/-! ### Resolution -/

def stripContract (ref : String) : String :=
  if Text.startsWith ref "contract:" then Text.sliceFrom ref "contract:".length else ref

/-- The declared range, `none` for an undeclared caller. -/
def callerRange (principal op : String) : Option String :=
  let deps := ((S.manifests.get? principal).map (·.dependencies)).getD []
  let name := opName op
  (deps.find? (fun d => d.ref = "contract:" ++ op || d.ref = "contract:" ++ name ||
    opName (stripContract d.ref) = name)).map (fun d => if d.range = "" then "*" else d.range)

structure Target where
  impl : String
  op : String
  deriving DecidableEq

def pinned (name : String) (pin : GenerationPin) : Target :=
  { impl := pin.impl, op := name ++ "@" ++ pin.version }

def resolveTarget (principal op : String) : Option Target :=
  match S.kernel with
  | none => (S.opRoute.get? op).map (fun impl => { impl, op })
  | some k =>
    let offerors := k.graph.whoOffers op
    match offerors with
    | [] =>
      match S.callerRange principal op with
      | none => none
      | some range => (k.tools.resolve (opName op) range).map (pinned (opName op))
    | [impl] => some { impl, op }
    | _ =>
      match k.tools.resolve (opName op) ((S.callerRange principal op).getD "*") with
      | some pin =>
        if pin.impl ∈ offerors then some (pinned (opName op) pin)
        else some { impl := offerors.getLast?.getD "", op }
      | none => some { impl := offerors.getLast?.getD "", op }

def maxInflight (id : String) : ℕ := ((S.manifests.get? id).bind (·.maxConcurrentCalls)).getD 4

def priorityOf (op : String) : PortPriority :=
  (S.opPriority.get? op).getD (if op = "law.check@1" then .gate else .normal)

end Routes

namespace PortRouter

variable (R : PortRouter)

def post (id : String) (msg : ToWorker) : PortRouter := { R with ports := R.ports.post id msg }

/-- `compartments.get(callerId)?.post` for a compartment, the returned promise for the root. -/
def reply (caller : Caller) (out : Outcome) : PortRouter :=
  match caller with
  | .root => { R with rootReplies := R.rootReplies ++ [out] }
  | .compartment id callId =>
    match out with
    | .threw _ => R
    | .result r => if R.compartments.has id then R.post id (.result callId r) else R

def journal (fields : List (String × JsValue)) : PortRouter :=
  if R.journaling then { R with lawJournal := R.lawJournal ++ [(R.ports.now, fields)] } else R

def register (entry : CompositionEntry) (manifest : PluginManifest)
    (tokens : OrderedMap String String) : PortRouter :=
  { R with
    compartments := R.compartments.set entry.id { bootedAt := R.ports.now }
    routes := R.routes.enrol entry manifest
    authority := R.authority.installTokens entry.id tokens
    ports := { R.ports with delivered := R.ports.delivered.set entry.id 0 } }

def registerDormant (entry : CompositionEntry) (manifest : PluginManifest)
    (tokens : OrderedMap String String) : PortRouter :=
  { R with
    routes := R.routes.enrol entry manifest
    authority := R.authority.installTokens entry.id tokens
    spawner := { R.spawner with
      dormant := R.spawner.dormant.set entry.id
        { entry, manifest, tokens, config := entry.config } } }

/-- The message that hands a checked-out worker its manifest, tokens and configuration. -/
def init (entry : CompositionEntry) (tokens : OrderedMap String String) (config : Option JsValue) :
    PortRouter :=
  R.post entry.id (.init tokens.entries entry.grant.capabilities config)

/-! ### Readiness -/

def setPhase (attempt : ℕ) (phase : SpawnPhase) : PortRouter :=
  match R.spawner.attempts.get? attempt with
  | none => R
  | some a => { R with
      spawner := { R.spawner with
        attempts := R.spawner.attempts.set attempt { a with phase } } }

def wakeReady (id : String) (err : Option String) : PortRouter :=
  match R.spawner.readyWaiters.get? id with
  | none => R
  | some w =>
    ({ R with
      spawner := { R.spawner with
        readyWaiters := R.spawner.readyWaiters.delete id } } : PortRouter).setPhase
      w.attempt (.settled err)

/-- The part of the on-demand spawner that follows `init`. -/
def waitActive (id : String) (attempt : ℕ) : PortRouter :=
  match (R.compartments.get? id).map CompartmentHandle.state with
  | some .active => R.setPhase attempt (.settled none)
  | some .degraded => R.setPhase attempt (.settled s!"Error: compartment {id} degraded before ready")
  | _ =>
    ({ R with
      spawner := { R.spawner with
        readyWaiters := R.spawner.readyWaiters.set id
          { attempt, due := R.ports.now + 10000 } } } : PortRouter).setPhase attempt .ready

def setState (id : String) (f : CompartmentHandle → CompartmentHandle) : PortRouter :=
  match R.compartments.get? id with
  | none => R
  | some h => { R with compartments := R.compartments.set id (f h) }

def failInflight (id reason : String) : PortRouter :=
  let woken := R.wakeReady id (some s!"Error: {reason}")
  { woken with ports := woken.ports.failInflight id reason }

def onCrash (id err : String) : PortRouter :=
  (R.setState id (fun h =>
    { h with crashes := h.crashes + 1, state := .degraded, lastError := some err })).failInflight
    id s!"compartment {id} crashed"

def onReady (id : String) : PortRouter :=
  (R.setState id (fun h => if h.state = .booting then { h with state := .active } else h)).wakeReady
    id none

/-! ### Dispatch -/

def causation (n : ℕ) : CausationId := "c_" ++ n.repr

inductive Deliver
  | refused (r : PortResult)
  | promise (p : ℕ)

def accept (target : String) (msg : DeliverMsg) (onChunk : Bool) : PortRouter :=
  { R with
    ports := R.ports.accept (R.routes.maxInflight target) target msg onChunk
      (R.routes.priorityOf msg.op) }

def deliver (target : String) (msg : DeliverMsg) (onChunk : Bool) : PortRouter × Deliver :=
  if R.compartments.has target = false then
    (R, .refused (.fail .refused s!"no compartment {target}"))
  else (R.accept target msg onChunk, .promise R.ports.nextPromise)

def gatePayload (principal op : String) (payload : JsValue) (c : CausationId) : JsValue :=
  .obj [("principal", .str principal), ("op", .str op), ("payload", payload),
    ("causationId", .str c)]

def gateMsg (principal op : String) (payload : JsValue) (c : CausationId) : DeliverMsg :=
  { causationId := c, op := "law.check@1", payload := gatePayload principal op payload c
    deadlineMs := 500, sender := "µhost-gate" }

def callLaw (principal op : String) (payload : JsValue) (c : CausationId) : PortRouter × Deliver :=
  match R.routes.opRoute.get? "law.check@1" with
  | none => (R, .refused
      (.fail .degraded "law.check@1 not routed — refusing risky op (fail-closed)"))
  | some lawId => R.deliver lawId (gateMsg principal op payload c) false

def setCall (c : CausationId) (f : CallFrame) : PortRouter := { R with calls := R.calls.set c f }

def close (c : CausationId) (f : CallFrame) (out : Outcome) : PortRouter :=
  (R.setCall c { f with stage := .closed out }).reply f.caller out

def finish (c : CausationId) (f : CallFrame) (r : PortResult) : PortRouter := R.close c f (.result r)

def targetMsg (c : CausationId) (f : CallFrame) : DeliverMsg :=
  { causationId := c, op := f.op, payload := f.payload, deadlineMs := f.deadlineMs
    sender := f.principal }

def handOver (c : CausationId) (f : CallFrame) : PortRouter :=
  match R.compartments.get? f.impl with
  | none => R.finish c f (.fail .degraded s!"implementation {f.impl} is absent")
  | some h =>
    if h.state = .stopped ∨ h.state = .degraded then
      R.finish c f (.fail .degraded s!"implementation {f.impl} is {h.state.text}")
    else
      match R.deliver f.impl (targetMsg c f) f.onChunk with
      | (R', .refused r) => R'.finish c f r
      | (R', .promise p) => R'.setCall c { f with stage := .target p }

def spawnFailed (impl err : String) : PortResult :=
  .fail .degraded s!"dormant {impl} failed to spawn on first touch: {err}"

def startAttempt (id : String) (d : DormantEntry) : PortRouter :=
  { R with
    spawner := { R.spawner with
      spawning := R.spawner.spawning.set id R.spawner.attemptSeq
      attempts := R.spawner.attempts.set R.spawner.attemptSeq { id, source := d, phase := .checkout }
      attemptSeq := R.spawner.attemptSeq + 1 } }

/-- Joins the spawn in progress or starts one; without a spawner it fails at once. -/
def spawnDormant (c : CausationId) (f : CallFrame) (d : DormantEntry) : PortRouter :=
  match R.spawner.spawning.get? f.impl with
  | some attempt => R.setCall c { f with stage := .spawn attempt }
  | none =>
    if R.spawner.onDemandSpawn = false then
      R.finish c f (spawnFailed f.impl
        s!"Error: dormant {f.impl} has no lazy spawner (fail-closed)")
    else
      (R.startAttempt f.impl d).setCall c { f with stage := .spawn R.spawner.attemptSeq }

/-- What follows the gate: a dormant target is spawned first. -/
def execute (c : CausationId) (f : CallFrame) : PortRouter :=
  if R.compartments.has f.impl then R.handOver c f
  else
    match R.spawner.dormant.get? f.impl with
    | none => R.handOver c f
    | some d => R.spawnDormant c f d

def refusal (f : CallFrame) (reason : JsValue) (consentId : Option JsValue) : RefusalReport :=
  { rule := "law.check@1", principal := f.principal, op := f.op, reason, consentId }

def denied (f : CallFrame) (reason : JsValue) : PortResult :=
  .error .refused s!"denied by law: {reason.orEmpty}" (some (refusal f reason none))

def consentRequired (f : CallFrame) (reason consentId : JsValue) : PortResult :=
  .error .refused
    (if consentId.truthy then s!"consent required: {consentId.text}" else "consent required")
    (some (refusal f reason (if consentId.isUndefined then none else some consentId)))

def journalDecision (c : CausationId) (f : CallFrame) (decision : String) (reason : JsValue)
    (consent : List (String × JsValue)) : PortRouter :=
  R.journal ([("principal", .str f.principal), ("op", .str f.op), ("decision", .str decision),
    ("reason", reason)] ++ consent ++ [("causationId", .str c)])

/-- What `dispatch` does with the answer of the gate. Reading a property of `undefined` or `null`
throws; a decision that is neither `deny` nor `require-consent` lets the call through. -/
def afterGate (c : CausationId) (f : CallFrame) (gate : PortResult) : PortRouter :=
  match gate with
  | .error code detail report => R.finish c f (.error code detail report)
  | .ok value =>
    match value.prop? "decision" with
    | none => R.close c f (.threw "TypeError: decision of a value without properties")
    | some decision =>
      let reason := (value.prop? "reason").getD .undefined
      let consentId := (value.prop? "consentId").getD .undefined
      if decision.string? = some "deny" then
        (R.journalDecision c f "deny" reason []).finish c f (denied f reason)
      else if decision.string? = some "require-consent" then
        (R.journalDecision c f "require-consent" reason [("consentId", consentId)]).finish c f
          (consentRequired f reason consentId)
      else (R.journalDecision c f "allow" reason []).execute c f

/-- The gate is consulted exactly for the ops with a declared risk. -/
def runCall (c : CausationId) (f : CallFrame) : PortRouter :=
  match f.risk with
  | none => R.execute c f
  | some _ =>
    match R.callLaw f.principal f.op f.payload c with
    | (R', .refused r) => R'.afterGate c f r
    | (R', .promise p) => R'.setCall c { f with stage := .gate p }

/-- The frame a call opens once its target is resolved: the risk is the effective op's. -/
def openFrame (caller : Caller) (principal : String) (payload : JsValue) (deadlineMs : ℕ)
    (onChunk : Bool) (target : Routes.Target) : CallFrame :=
  { caller, principal, impl := target.impl, op := target.op, payload, deadlineMs, onChunk
    risk := R.routes.opRisk.get? target.op }

def dispatch (caller : Caller) (principal op : String) (payload : JsValue) (deadlineMs : ℕ)
    (c : CausationId) (onChunk : Bool) : PortRouter :=
  match R.routes.resolveTarget principal op with
  | none => R.reply caller (.result (.fail .refused s!"no routed implementation for {op}"))
  | some target => R.runCall c (R.openFrame caller principal payload deadlineMs onChunk target)

/-- `dispatch` under the next causation id. -/
def startCall (caller : Caller) (principal op : String) (payload : JsValue) (deadlineMs : ℕ)
    (onChunk : Bool) : PortRouter :=
  ({ R with callSeq := R.callSeq + 1 } : PortRouter).dispatch caller principal op payload deadlineMs
    (causation (R.callSeq + 1)) onChunk

/-- The continuation of `dispatch` once what it awaits has settled. -/
def resume (c : CausationId) : Option PortRouter := do
  let f ← R.calls.get? c
  match f.stage with
  | .opened => none
  | .closed _ => none
  | .gate p =>
    let (_, r) ← R.ports.resolved.find? (fun e => e.1 = p)
    return R.afterGate c f r
  | .target p =>
    let (_, r) ← R.ports.resolved.find? (fun e => e.1 = p)
    return R.finish c f r
  | .spawn attempt =>
    let a ← R.spawner.attempts.get? attempt
    match a.phase with
    | .over none => return R.handOver c f
    | .over (some err) => return R.finish c f (spawnFailed f.impl err)
    | _ => none

/-! ### On-demand spawning -/

/-- The worker is there: register, post `init`, wait for `ready`. -/
def checkedOut (id : String) : Option PortRouter := do
  let attempt ← R.spawner.spawning.get? id
  let a ← R.spawner.attempts.get? attempt
  if a.phase = .checkout then
    let d := a.source
    return ((R.register d.entry d.manifest d.tokens).init d.entry d.tokens d.config).waitActive
      id attempt
  else none

def checkoutFailed (id err : String) : Option PortRouter := do
  let attempt ← R.spawner.spawning.get? id
  let a ← R.spawner.attempts.get? attempt
  if a.phase = .checkout then return R.setPhase attempt (.settled (some err)) else none

def readyTimeout (id : String) : Option PortRouter := do
  let w ← R.spawner.readyWaiters.get? id
  if w.due ≤ R.ports.now then
    return R.wakeReady id (some s!"Error: compartment {id} not active within 10000ms")
  else none

/-- The tail of the single-flight promise: a spawn that succeeded is no longer dormant, and either
way the flight is over. -/
def settleSpawn (id : String) : Option PortRouter := do
  let attempt ← R.spawner.spawning.get? id
  let a ← R.spawner.attempts.get? attempt
  match a.phase with
  | .settled err =>
    return ({ R with
      spawner := { R.spawner with
        dormant := if err.isNone then R.spawner.dormant.delete id else R.spawner.dormant
        spawning := R.spawner.spawning.delete id } } : PortRouter).setPhase attempt (.over err)
  | _ => none

/-! ### Host ops -/

def statsOf (id : String) (h : CompartmentHandle) : JsValue :=
  .obj ([("state", .str h.state.text), ("delivered", .num ((R.ports.delivered.get? id).getD 0)),
    ("calls", .num h.calls), ("errors", .num 0), ("crashes", .num h.crashes),
    ("bootedAt", .num h.bootedAt)] ++
    (match h.lastError with
      | none => []
      | some err => [("lastError", .str err)]) ++
    [("inflight", .num (R.ports.inflight id).length)])

def dormantStats : JsValue :=
  .obj [("state", .str "dormant"), ("delivered", .num 0), ("calls", .num 0), ("errors", .num 0),
    ("crashes", .num 0), ("bootedAt", .num 0), ("inflight", .num 0)]

def compartmentStats : JsValue :=
  .obj (R.compartments.entries.map (fun e => (e.1, R.statsOf e.1 e.2)) ++
    (R.spawner.dormant.keys.filter (fun id => !R.compartments.has id)).map
      (fun id => (id, dormantStats)))

def terminateReason (callerId : String) (fast : JsValue) : String :=
  s!"terminated by {callerId}" ++ if fast.truthy then " (fast)" else ""

def terminate (callerId : String) (payload : JsValue) : PortRouter × Outcome :=
  match payload.prop? "pluginId", payload.prop? "fast" with
  | some pluginId, some fast =>
    match pluginId.string? with
    | none => (R, .result (.fail .scope s!"unknown compartment {pluginId.text}"))
    | some id =>
      if R.compartments.has id then
        ((R.failInflight id (terminateReason callerId fast)).setState id
            (fun h => { h with state := .stopped }),
          .result (.ok (.obj [("terminated", .str id)])))
      else (R, .result (.fail .scope s!"unknown compartment {id}"))
  | _, _ => (R, .threw "TypeError: pluginId of a value without properties")

def revokeReason (pluginId : JsValue) (affected generation : ℕ) : String :=
  if pluginId.truthy then s!"scoped revoke: {affected} token(s) of {pluginId.text}"
  else s!"revoke-all: generation bumped to {generation}"

def revokeScope (pluginId : JsValue) : JsValue :=
  if pluginId.isNullish then .str "all" else pluginId

def revoke (callerId : String) (payload : JsValue) : PortRouter × Outcome :=
  match payload.prop? "pluginId" with
  | none => (R, .threw "TypeError: pluginId of a value without properties")
  | some pluginId =>
    let affected := R.authority.affected pluginId
    let authority := R.authority.revoke pluginId
    (({ R with authority } : PortRouter).journal
      [("principal", .str callerId), ("op", .str "host.tokens.revoke"), ("decision", .str "allow"),
        ("reason", .str (revokeReason pluginId affected authority.generation)),
        ("affected", .num affected), ("scope", revokeScope pluginId)],
      .result (.ok (.obj [("generation", .num authority.generation),
        ("affectedTokens", .num affected)])))

def withKernel (f : Kernel → PortRouter × Outcome) : PortRouter × Outcome :=
  match R.routes.kernel with
  | none => (R, .result (.fail .degraded "no kernel attached"))
  | some k => f k

def setKernel (k : Kernel) : PortRouter := { R with routes := { R.routes with kernel := some k } }

/-- The key of a `state.acquire` or `state.release`, which must be a non-empty string. -/
def withKey (op : String) (payload : JsValue) (f : String → PortRouter × Outcome) :
    PortRouter × Outcome :=
  match payload.prop? "key" with
  | none => (R, .threw "TypeError: key of a value without properties")
  | some key =>
    match key.string? with
    | none => (R, .result (.fail .scope s!"{op} requires a key"))
    | some key => if key = "" then (R, .result (.fail .scope s!"{op} requires a key")) else f key

def stateAcquire (callerId : String) (payload : JsValue) : PortRouter × Outcome :=
  R.withKernel fun k => R.withKey "state.acquire" payload fun key =>
    let mode : LockMode :=
      if ((payload.prop? "mode").bind JsValue.string?) = some "shared" then .shared else .exclusive
    match k.state.tryAcquire key callerId mode with
    | .error e => (R, .result (.fail .refused e))
    | .ok state =>
      (R.setKernel { k with state },
        .result (.ok (.obj [("key", .str key), ("mode", .str mode.text), ("holder", .str callerId)])))

def stateRelease (callerId : String) (payload : JsValue) : PortRouter × Outcome :=
  R.withKernel fun k => R.withKey "state.release" payload fun key =>
    (R.setKernel { k with state := k.state.release key callerId },
      .result (.ok (.obj [("released", .str key), ("by", .str callerId)])))

def hostOp (callerId op : String) (payload : JsValue) : PortRouter × Outcome :=
  if op = HostOps.compartmentStats then (R, .result (.ok R.compartmentStats))
  else if op = HostOps.compartmentTerminate then R.terminate callerId payload
  else if op = HostOps.compartmentSpawn then
    match payload.prop? "pluginId" with
    | none => (R, .threw "TypeError: pluginId of a value without properties")
    | some pluginId => (R, .result (.fail .refused
        s!"compartment.spawn of '{pluginId.text}' requires reboot via recipe (v1: restart = reboot composition)"))
  else if op = HostOps.journalAppend then
    (R.journal payload.spread, .result (.ok (.obj [("appended", .bool true)])))
  else if op = HostOps.tokensRevoke then R.revoke callerId payload
  else if op = HostOps.stateAcquire then R.stateAcquire callerId payload
  else if op = HostOps.stateRelease then R.stateRelease callerId payload
  else if op = HostOps.graphSnapshot then
    R.withKernel fun k => (R, .result (.ok k.graph.snapshot))
  else if op = HostOps.auditChain then
    R.withKernel fun k => (R, .result (.ok k.audit.exportChain))
  else (R, .result (.fail .refused s!"unknown host op {op}"))

/-! ### Callers -/

def callAsRoot (op : String) (payload : JsValue) (deadlineMs : ℕ) (onChunk : Bool) : PortRouter :=
  if Authority.isHostOp op then
    let (R', out) := R.hostOp "root" op payload
    R'.reply .root out
  else R.startCall .root "root" op payload deadlineMs onChunk

def compartmentCall (callerId : String) (m : CallMsg) : PortRouter :=
  let caller := Caller.compartment callerId m.callId
  match R.authority.checkToken callerId m.capabilityToken m.op with
  | some refused => R.reply caller (.result refused)
  | none =>
    if Authority.isHostOp m.op then
      let (R', out) := R.hostOp callerId m.op m.payload
      R'.reply caller out
    else R.startCall caller callerId m.op m.payload m.deadlineMs false

def onWorkerMessage (id : String) (m : FromWorker) : PortRouter :=
  match m with
  | .chunk c chunk => { R with ports := R.ports.onChunk c chunk }
  | .ret c result => { R with ports := R.ports.onReturn id c result }
  | .call m => (R.setState id (fun h => { h with calls := h.calls + 1 })).compartmentCall id m
  | .ready => R.onReady id

end PortRouter

end VivimOmega.Host

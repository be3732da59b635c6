import VivimOmega.Host.Router
import VivimOmega.Host.Slots
import VivimOmega.Library.Transition

/-! Runs of the router: the events that reach it, one method each, in any order. -/

namespace VivimOmega.Host

open Library Contracts

/-- What can happen next. Frames, crashes and the outcome of a checkout come from the workers,
timers from the clock; `resume` and `settleSpawn` are continuations of settled promises. -/
inductive Event
  | register (entry : CompositionEntry) (tokens : OrderedMap String String)
  | registerDormant (entry : CompositionEntry) (tokens : OrderedMap String String)
  | callAsRoot (op : String) (payload : JsValue) (deadlineMs : ℕ) (onChunk : Bool)
  | message (id : String) (m : FromWorker)
  | crash (id err : String)
  | deadline (p : ℕ)
  | readyTimeout (id : String)
  | checkedOut (id : String)
  | checkoutFailed (id err : String)
  | settleSpawn (id : String)
  | resume (c : CausationId)
  | advance (ms : ℕ)

namespace PortRouter

def receive (R : PortRouter) (id : String) (m : FromWorker) : PortRouter :=
  { R with ports := R.ports.receive id m }

def onDeadline (R : PortRouter) (d : Delivery) : PortRouter :=
  { R with ports := R.ports.onDeadline d }

def advance (R : PortRouter) (ms : ℕ) : PortRouter := { R with ports := R.ports.advance ms }

/-- One event, over the manifests the composition was verified with. An id is registered eagerly
at most once, and only while no on-demand spawn of it is under way. -/
def step (manifests : OrderedMap String PluginManifest) (R : PortRouter) :
    Event → Option PortRouter
  | .register entry tokens =>
    match manifests.get? entry.id with
    | none => none
    | some m =>
      if R.compartments.has entry.id || R.spawner.spawning.has entry.id then none
      else some ((R.register entry m tokens).init entry tokens entry.config)
  | .registerDormant entry tokens =>
    (manifests.get? entry.id).map (fun m => R.registerDormant entry m tokens)
  | .callAsRoot op payload deadlineMs onChunk => some (R.callAsRoot op payload deadlineMs onChunk)
  | .message id m =>
    if R.compartments.has id then some ((R.receive id m).onWorkerMessage id m) else none
  | .crash id err => if R.compartments.has id then some (R.onCrash id err) else none
  | .deadline p =>
    match R.ports.timers.get? p with
    | none => none
    | some d => if d.due ≤ R.ports.now then some (R.onDeadline d) else none
  | .readyTimeout id => R.readyTimeout id
  | .checkedOut id => R.checkedOut id
  | .checkoutFailed id err => R.checkoutFailed id err
  | .settleSpawn id => R.settleSpawn id
  | .resume c => R.resume c
  | .advance ms => some (R.advance ms)

/-- A new router, with or without a kernel. -/
def fresh (journaling : Bool) (kernel : Option Kernel) (onDemandSpawn : Bool) : PortRouter :=
  { journaling, routes := { kernel }, spawner := { onDemandSpawn } }

def system (manifests : OrderedMap String PluginManifest) : System PortRouter Event :=
  { init := fun R => ∃ journaling kernel onDemandSpawn, R = fresh journaling kernel onDemandSpawn
    step := step manifests }

end PortRouter

/-! ### A small composition, for runs written out in full -/

namespace Sample

def contribution (id : String) (risk : Option RiskClass) : Contribution :=
  { id, version := "1", risk }

def manifest (id : String) (contract : List Contribution) (maxConcurrentCalls : Option ℕ) :
    PluginManifest :=
  { id, entry := "index.js", contributions := { contract }, maxConcurrentCalls }

def entry (id : String) (contracts capabilities : List String) (bootPhase : ℕ) : CompositionEntry :=
  { id, source := id, manifestPath := id ++ ".json", manifestHash := "sha256:00"
    contentHash := "sha256:00", grant := { capabilities, contracts }, bootPhase }

/-- Law, and a note store whose `put` is a mutation. -/
def manifests (lawCap notesCap : Option ℕ) : OrderedMap String PluginManifest :=
  .ofEntries
    [("vivim.law", manifest "vivim.law" [contribution "law.check" none] lawCap),
      ("notes", manifest "notes"
        [contribution "notes.put" (some .mutation), contribution "notes.get" (some .read)] notesCap)]

lemma manifests_cases {lawCap notesCap : Option ℕ} {id : String} {m : PluginManifest}
    (h : (manifests lawCap notesCap).get? id = some m) :
    m = manifest "vivim.law" [contribution "law.check" none] lawCap ∨
      m = manifest "notes"
        [contribution "notes.put" (some .mutation), contribution "notes.get" (some .read)]
        notesCap := by
  simp only [manifests, OrderedMap.ofEntries, List.foldl_cons, List.foldl_nil, OrderedMap.get?_set,
    OrderedMap.get?_empty] at h
  split_ifs at h <;> cases h
  · exact .inr rfl
  · exact .inl rfl

def law : CompositionEntry := entry "vivim.law" ["law.check@1"] [] 0

def notes : CompositionEntry :=
  entry "notes" ["notes.put@1", "notes.get@1"] ["port:notes.get@1"] 1

def start : PortRouter := PortRouter.fresh false none true

lemma start_init (manifests : OrderedMap String PluginManifest) :
    (PortRouter.system manifests).init start := ⟨false, none, true, rfl⟩

def decision (d : String) : PortResult := .ok (.obj [("decision", .str d)])

def put : Event := .callAsRoot "notes.put@1" .null 5000 false

def get : Event := .callAsRoot "notes.get@1" .null 5000 false

def answer (id c : String) (r : PortResult) : Event := .message id (.ret c r)

def boot : List Event := [.register law .empty, .register notes .empty]

end Sample

namespace PortRouter

/-! ### What one stretch of `dispatch` does -/

/-- What follows the gate: the call fails, waits for a spawn, or is handed to its target. -/
inductive Executed (R : PortRouter) (c : CausationId) (f : CallFrame) : PortRouter → Prop
  | failed (code : PortErrorCode) (detail : String) :
    Executed R c f (R.finish c f (.fail code detail))
  | joined (attempt : ℕ) :
    R.compartments.has f.impl = false → R.spawner.spawning.get? f.impl = some attempt →
      Executed R c f (R.setCall c { f with stage := .spawn attempt })
  | spawned (d : DormantEntry) :
    R.compartments.has f.impl = false → R.spawner.dormant.get? f.impl = some d →
      R.spawner.spawning.get? f.impl = none → R.spawner.onDemandSpawn = true →
      Executed R c f ((R.startAttempt f.impl d).setCall c
        { f with stage := .spawn R.spawner.attemptSeq })
  | targeted (h : CompartmentHandle) :
    R.compartments.get? f.impl = some h → h.state ≠ .stopped → h.state ≠ .degraded →
      Executed R c f ((R.accept f.impl (targetMsg c f) f.onChunk).setCall c
        { f with stage := .target R.ports.nextPromise })

/-- Each stretch either closes the call or parks it on one promise. -/
inductive Progress (R : PortRouter) (c : CausationId) (f : CallFrame) : PortRouter → Prop
  | closed (out : Outcome) : Progress R c f (R.close c f out)
  | gated (lawId : String) :
    R.routes.opRoute.get? "law.check@1" = some lawId → R.compartments.has lawId = true →
      Progress R c f ((R.accept lawId (gateMsg f.principal f.op f.payload c) false).setCall c
        { f with stage := .gate R.ports.nextPromise })
  | executed {R' : PortRouter} : Executed R c f R' → Progress R c f R'

variable (R : PortRouter) (c : CausationId) (f : CallFrame)

lemma handOver_executed : Executed R c f (R.handOver c f) := by
  unfold handOver
  cases hh : R.compartments.get? f.impl with
  | none => exact .failed _ _
  | some h =>
    have hhas : ¬ R.compartments.has f.impl = false := by
      rw [OrderedMap.has_of_get? hh]
      simp
    dsimp only
    split_ifs with hstate
    · exact .failed _ _
    · rw [deliver, if_neg hhas]
      push Not at hstate
      exact .targeted h hh hstate.1 hstate.2

lemma execute_executed : Executed R c f (R.execute c f) := by
  unfold execute
  split_ifs with hhas
  · exact handOver_executed R c f
  · have hno : R.compartments.has f.impl = false := by simpa using hhas
    cases hd : R.spawner.dormant.get? f.impl with
    | none => exact handOver_executed R c f
    | some d =>
      dsimp only
      unfold spawnDormant
      cases hs : R.spawner.spawning.get? f.impl with
      | some attempt => exact .joined attempt hno hs
      | none =>
        dsimp only
        split_ifs with hspawn
        · exact .failed _ _
        · exact .spawned d hno hd hs (by simpa using hspawn)

/-- A value the gate lets through. -/
def Passes (value : JsValue) : Prop :=
  ∃ decision, value.prop? "decision" = some decision ∧ decision.string? ≠ some "deny" ∧
    decision.string? ≠ some "require-consent"

lemma journalDecision_eq (decision : String) (reason : JsValue) (consent : List (String × JsValue)) :
    ∃ J, R.journalDecision c f decision reason consent = { R with lawJournal := J } := by
  unfold journalDecision journal
  split_ifs
  · exact ⟨_, rfl⟩
  · exact ⟨R.lawJournal, rfl⟩

/-- After the gate a call is refused with a register, ends with a TypeError that nobody catches, or
goes on. -/
lemma afterGate_cases (gate : PortResult) :
    ∃ J, (∃ code detail report, R.afterGate c f gate =
        ({ R with lawJournal := J } : PortRouter).finish c f (.error code detail report)) ∨
      (∃ value message, gate = .ok value ∧ value.prop? "decision" = none ∧
        R.afterGate c f gate = ({ R with lawJournal := J } : PortRouter).close c f (.threw message)) ∨
      ∃ value, gate = .ok value ∧ Passes value ∧
        R.afterGate c f gate = ({ R with lawJournal := J } : PortRouter).execute c f := by
  cases gate with
  | error code detail report => exact ⟨R.lawJournal, .inl ⟨code, detail, report, rfl⟩⟩
  | ok value =>
    simp only [afterGate]
    cases hd : value.prop? "decision" with
    | none => exact ⟨R.lawJournal, .inr (.inl ⟨value, _, rfl, hd, rfl⟩)⟩
    | some decision =>
      dsimp only
      split_ifs with hdeny hconsent
      · obtain ⟨J, hJ⟩ := journalDecision_eq R c f "deny" ((value.prop? "reason").getD .undefined) []
        exact ⟨J, .inl ⟨_, _, _, by rw [hJ]; rfl⟩⟩
      · obtain ⟨J, hJ⟩ := journalDecision_eq R c f "require-consent"
          ((value.prop? "reason").getD .undefined)
          [("consentId", (value.prop? "consentId").getD .undefined)]
        exact ⟨J, .inl ⟨_, _, _, by rw [hJ]; rfl⟩⟩
      · obtain ⟨J, hJ⟩ := journalDecision_eq R c f "allow" ((value.prop? "reason").getD .undefined) []
        exact ⟨J, .inr (.inr ⟨value, rfl, ⟨decision, hd, hdeny, hconsent⟩, by rw [hJ]⟩)⟩

lemma afterGate_progress (gate : PortResult) :
    ∃ J, Progress { R with lawJournal := J } c f (R.afterGate c f gate) := by
  obtain ⟨J, ⟨code, detail, report, h⟩ | ⟨_, message, _, _, h⟩ | ⟨_, _, _, h⟩⟩ :=
    afterGate_cases R c f gate
  · exact ⟨J, h ▸ .closed (.result (.error code detail report))⟩
  · exact ⟨J, h ▸ .closed (.threw message)⟩
  · exact ⟨J, h ▸ .executed (execute_executed _ c f)⟩

/-- A call without a declared risk is executed at once; with one, it is sent to the gate, or refused
where there is no law. -/
lemma runCall_cases :
    (f.risk = none ∧ R.runCall c f = R.execute c f) ∨
      (f.risk ≠ none ∧ (∃ code detail report,
        R.runCall c f = R.finish c f (.error code detail report))) ∨
      (f.risk ≠ none ∧ ∃ lawId, R.routes.opRoute.get? "law.check@1" = some lawId ∧
        R.compartments.has lawId = true ∧
        R.runCall c f = (R.accept lawId (gateMsg f.principal f.op f.payload c) false).setCall c
          { f with stage := .gate R.ports.nextPromise }) := by
  unfold runCall callLaw
  cases hr : f.risk with
  | none => exact .inl ⟨rfl, rfl⟩
  | some risk =>
    have hrisk : some risk ≠ none := Option.some_ne_none risk
    dsimp only
    cases hl : R.routes.opRoute.get? "law.check@1" with
    | none => exact .inr (.inl ⟨hrisk, _, _, _, rfl⟩)
    | some lawId =>
      dsimp only
      unfold deliver
      split_ifs with hno
      · exact .inr (.inl ⟨hrisk, _, _, _, rfl⟩)
      · exact .inr (.inr ⟨hrisk, lawId, rfl, by simpa using hno, by rw [← hr]⟩)

lemma runCall_progress : Progress R c f (R.runCall c f) := by
  rcases runCall_cases R c f with
    ⟨_, h⟩ | ⟨_, code, detail, report, h⟩ | ⟨_, lawId, hroute, hhas, h⟩
  · exact h ▸ .executed (execute_executed R c f)
  · exact h ▸ .closed (.result (.error code detail report))
  · exact h ▸ .gated lawId hroute hhas

lemma dispatch_cases (caller : Caller) (principal op : String) (payload : JsValue) (deadlineMs : ℕ)
    (onChunk : Bool) :
    (∃ r, R.dispatch caller principal op payload deadlineMs c onChunk = R.reply caller (.result r)) ∨
      ∃ target, R.routes.resolveTarget principal op = some target ∧
        R.dispatch caller principal op payload deadlineMs c onChunk =
          R.runCall c (R.openFrame caller principal payload deadlineMs onChunk target) := by
  unfold dispatch
  cases ht : R.routes.resolveTarget principal op with
  | none => exact .inl ⟨_, rfl⟩
  | some target => exact .inr ⟨target, rfl, rfl⟩

/-- A resumed call awaited a promise that has settled, or a spawn that is over. -/
lemma resume_cases {R' : PortRouter} (h : R.resume c = some R') :
    ∃ f, R.calls.get? c = some f ∧
      ((∃ p r, f.stage = .gate p ∧ (p, r) ∈ R.ports.resolved ∧ R' = R.afterGate c f r) ∨
        (∃ p r, f.stage = .target p ∧ (p, r) ∈ R.ports.resolved ∧ R' = R.finish c f r) ∨
        ∃ attempt a err, f.stage = .spawn attempt ∧ R.spawner.attempts.get? attempt = some a ∧
          a.phase = .over err ∧
          ((err = none ∧ R' = R.handOver c f) ∨
            ∃ text, err = some text ∧ R' = R.finish c f (spawnFailed f.impl text))) := by
  unfold resume at h
  obtain ⟨f, hf, h⟩ := Option.bind_eq_some_iff.mp h
  refine ⟨f, hf, ?_⟩
  have hfound : ∀ {p r}, R.ports.resolved.find? (fun e => e.1 = p) = some r →
      (p, r.2) ∈ R.ports.resolved := by
    intro p r hr
    have hp : r.1 = p := by simpa using List.find?_some hr
    exact hp ▸ List.mem_of_find?_eq_some hr
  cases hs : f.stage with
  | opened => simp [hs] at h
  | closed out => simp [hs] at h
  | gate p =>
    simp only [hs] at h
    obtain ⟨r, hr, h⟩ := Option.bind_eq_some_iff.mp h
    exact .inl ⟨p, r.2, rfl, hfound hr, (Option.some.inj h).symm⟩
  | target p =>
    simp only [hs] at h
    obtain ⟨r, hr, h⟩ := Option.bind_eq_some_iff.mp h
    exact .inr (.inl ⟨p, r.2, rfl, hfound hr, (Option.some.inj h).symm⟩)
  | spawn attempt =>
    simp only [hs] at h
    obtain ⟨a, ha, h⟩ := Option.bind_eq_some_iff.mp h
    cases hp : a.phase with
    | checkout => simp [hp] at h
    | ready => simp [hp] at h
    | settled err => simp [hp] at h
    | «over» err =>
      refine .inr (.inr ⟨attempt, a, err, rfl, ha, hp, ?_⟩)
      cases err with
      | none =>
        simp only [hp] at h
        exact .inl ⟨rfl, (Option.some.inj h).symm⟩
      | some text =>
        simp only [hp] at h
        exact .inr ⟨text, rfl, (Option.some.inj h).symm⟩

end PortRouter

end VivimOmega.Host

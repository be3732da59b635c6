import VivimOmega.Host.Provenance
import VivimOmega.Host.Turns

/-! The state arbiter behind `host.state.acquire@1` and `host.state.release@1`, over whole runs of the router. -/

namespace VivimOmega.Host

open Library Contracts

namespace StateArbitrator

variable {a a' : StateArbitrator} {key principal : String} {mode : LockMode}

/-- Any number of shared holders, or one exclusive holder. -/
def Compatible (holders : List Holder) : Prop :=
  (∀ h ∈ holders, h.mode = .shared) ∨ ∃ h, holders = [h] ∧ h.mode = .exclusive

/-- The key is free for an acquisition in the mode. -/
def Grantable (holders : List Holder) (mode : LockMode) : Prop :=
  (∀ h ∈ holders, h.mode = .shared) ∧ (mode = .exclusive → holders = [])

lemma tryAcquire_ok_iff : a.tryAcquire key principal mode = .ok a' ↔
    Grantable (a.holdersOf key) mode ∧ a' = { keys := a.keys.set key (a.holdersOf key ++ [{ principal, mode }]) } := by
  have hshared : ∀ m : LockMode, m = .shared ↔ ¬ m = .exclusive := by
    intro m
    cases m <;> simp
  have hconflict : ((a.holdersOf key).any (fun h => h.mode = .exclusive) ||
      (mode = .exclusive && !(a.holdersOf key).isEmpty)) = true ↔ ¬ Grantable (a.holdersOf key) mode := by
    simp only [Bool.or_eq_true, List.any_eq_true, decide_eq_true_eq, Bool.and_eq_true, Bool.not_eq_true',
      List.isEmpty_eq_false_iff]
    constructor
    · rintro (⟨h, hh, hexclusive⟩ | ⟨hexclusive, hheld⟩) ⟨hall, hempty⟩
      · exact (hshared h.mode).mp (hall h hh) hexclusive
      · exact hheld (hempty hexclusive)
    · intro hnot
      by_contra hno
      push Not at hno
      exact hnot ⟨fun h hh => (hshared h.mode).mpr (hno.1 h hh), hno.2⟩
  unfold tryAcquire
  dsimp only
  split_ifs with hif
  · exact iff_of_false nofun fun h => hconflict.mp hif h.1
  · rw [hconflict, not_not] at hif
    rw [Except.ok.injEq, and_iff_right hif]
    exact eq_comm

lemma holdersOf_set (m : OrderedMap String (List Holder)) (key key' : String) (holders : List Holder) :
    holdersOf { keys := m.set key holders } key' = if key' = key then holders else holdersOf { keys := m } key' := by
  rw [holdersOf, OrderedMap.get?_set]
  split_ifs <;> rfl

lemma release_eq (a : StateArbitrator) (key principal key' : String) : (a.release key principal).holdersOf key' =
    if key' = key then (a.holdersOf key).filter (fun h => h.principal ≠ principal) else a.holdersOf key' := by
  unfold release
  cases hkey : a.keys.get? key with
  | none =>
    split_ifs with hsame
    · simp [hsame, holdersOf, hkey]
    · rfl
  | some holders =>
    have hheld : a.holdersOf key = holders := by rw [holdersOf, hkey, Option.getD_some]
    rw [holdersOf_set, hheld]

/-- A release by who holds nothing leaves the arbiter as it is. -/
lemma release_of_not_holder (h : ∀ x ∈ a.holdersOf key, x.principal ≠ principal) : a.release key principal = a := by
  unfold release
  cases hkey : a.keys.get? key with
  | none => rfl
  | some holders =>
    have hheld : a.holdersOf key = holders := by rw [holdersOf, hkey, Option.getD_some]
    have hfilter : holders.filter (fun x => decide (x.principal ≠ principal)) = holders :=
      List.filter_eq_self.mpr fun x hx => decide_eq_true (h x (hheld ▸ hx))
    dsimp only
    rw [hfilter, OrderedMap.set_same hkey]

inductive Request
  | acquire (key principal : String) (mode : LockMode)
  | release (key principal : String)

/-- The arbiter after a request, which it may refuse. -/
def serve (a : StateArbitrator) : Request → StateArbitrator
  | .acquire key principal mode => (a.tryAcquire key principal mode).toOption.getD a
  | .release key principal => a.release key principal

lemma serve_acquire_cases (a : StateArbitrator) (key principal : String) (mode : LockMode) :
    (¬ Grantable (a.holdersOf key) mode ∧ a.serve (.acquire key principal mode) = a) ∨
      Grantable (a.holdersOf key) mode ∧ ∀ key', (a.serve (.acquire key principal mode)).holdersOf key' =
        if key' = key then a.holdersOf key ++ [⟨principal, mode⟩] else a.holdersOf key' := by
  rw [serve]
  cases hacquire : a.tryAcquire key principal mode with
  | error e =>
    refine Or.inl ⟨fun hfree => ?_, rfl⟩
    rw [tryAcquire_ok_iff.mpr ⟨hfree, rfl⟩] at hacquire
    cases hacquire
  | ok a' =>
    obtain ⟨hfree, rfl⟩ := tryAcquire_ok_iff.mp hacquire
    exact Or.inr ⟨hfree, fun key' => holdersOf_set _ _ _ _⟩

lemma compatible_serve (h : ∀ key, Compatible (a.holdersOf key)) (r : Request) (key : String) :
    Compatible ((a.serve r).holdersOf key) := by
  cases r with
  | acquire key' principal mode =>
    obtain ⟨_, hsame⟩ | ⟨⟨hshared, hempty⟩, hheld⟩ := serve_acquire_cases a key' principal mode
    · rw [hsame]
      exact h key
    · rw [hheld]
      split_ifs
      · cases mode with
        | shared =>
          left
          intro x hx
          obtain hold | hnew := List.mem_append.mp hx
          · exact hshared x hold
          · rw [List.mem_singleton.mp hnew]
        | exclusive =>
          right
          rw [hempty rfl]
          exact ⟨_, rfl, rfl⟩
      · exact h key
  | release key' principal =>
    rw [serve, release_eq]
    split_ifs with hsame
    · obtain hshared | ⟨x, hx, hexclusive⟩ := h key'
      · exact Or.inl fun x hx => hshared x (List.mem_of_mem_filter hx)
      · rw [hx, List.filter_cons]
        split_ifs
        · exact Or.inr ⟨x, rfl, hexclusive⟩
        · exact Or.inl (fun y hy => absurd hy List.not_mem_nil)
    · exact h key

/-- Who holds a key after a request held it before, or has just been granted it. -/
lemma mem_serve {r : Request} {key : String} {x : Holder} (hx : x ∈ (a.serve r).holdersOf key) :
    x ∈ a.holdersOf key ∨ ∃ mode, r = .acquire key x.principal mode ∧ Grantable (a.holdersOf key) mode := by
  cases r with
  | acquire key' principal mode =>
    obtain ⟨_, hsame⟩ | ⟨hfree, hheld⟩ := serve_acquire_cases a key' principal mode
    · rw [hsame] at hx
      exact Or.inl hx
    · rw [hheld] at hx
      split_ifs at hx with hkey
      · obtain hold | hnew := List.mem_append.mp hx
        · exact Or.inl (hkey ▸ hold)
        · rw [List.mem_singleton.mp hnew, hkey]
          exact Or.inr ⟨mode, rfl, hfree⟩
      · exact Or.inl hx
  | release key' principal =>
    rw [serve, release_eq] at hx
    split_ifs at hx with hkey
    · exact Or.inl (hkey ▸ List.mem_of_mem_filter hx)
    · exact Or.inl hx

end StateArbitrator

open StateArbitrator (Request Compatible Grantable)

namespace PortRouter

variable {manifests : OrderedMap String PluginManifest} {R R' S S' : PortRouter} {e : Event} {id : String}

def arbiter (R : PortRouter) : Option StateArbitrator := R.routes.kernel.map Kernel.state

def holders (R : PortRouter) (key : String) : List Holder := (R.arbiter.map (·.holdersOf key)).getD []

def keyOf? (payload : JsValue) : Option String :=
  ((payload.prop? "key").bind JsValue.string?).filter (fun key => key ≠ "")

def modeOf (payload : JsValue) : LockMode :=
  if ((payload.prop? "mode").bind JsValue.string?) = some "shared" then .shared else .exclusive

def requestOf (principal op : String) (payload : JsValue) : Option Request :=
  if op = HostOps.stateAcquire then (keyOf? payload).map fun key => .acquire key principal (modeOf payload)
  else if op = HostOps.stateRelease then (keyOf? payload).map fun key => .release key principal
  else none

/-- What an event asks of the arbiter, once its token is accepted. -/
def stateRequest? (R : PortRouter) : Event → Option Request
  | .callAsRoot op payload _ _ => requestOf "root" op payload
  | .message id (.call m) =>
    if (R.authority.checkToken id m.capabilityToken m.op).isSome then none else requestOf id m.op m.payload
  | _ => none

def served (a : Option StateArbitrator) : Option Request → Option StateArbitrator
  | none => a
  | some r => a.map (·.serve r)

section Frame

variable {c : CausationId} {f : CallFrame}

lemma reply_routes (R : PortRouter) (caller : Caller) (out : Outcome) : (R.reply caller out).routes = R.routes := by
  obtain ⟨L, heq⟩ | ⟨id, callId, r, heq⟩ := reply_shape R caller out
  · rw [heq]
  · rw [heq]
    rfl

lemma setState_routes (R : PortRouter) (id : String) (g : CompartmentHandle → CompartmentHandle) :
    (R.setState id g).routes = R.routes := by
  obtain ⟨K, heq, _⟩ := setState_shape R id g
  rw [heq]

lemma wakeReady_routes (R : PortRouter) (id : String) (err : Option String) :
    (R.wakeReady id err).routes = R.routes := by
  obtain ⟨A, W, heq⟩ := wakeReady_shape R id err
  rw [heq]

lemma failInflight_routes (R : PortRouter) (id reason : String) : (R.failInflight id reason).routes = R.routes :=
  wakeReady_routes R id _

lemma close_routes (R : PortRouter) (c : CausationId) (f : CallFrame) (out : Outcome) :
    (R.close c f out).routes = R.routes := reply_routes _ _ _

lemma Executed.routes (h : Executed R c f R') : R'.routes = R.routes := by
  cases h with
  | failed => exact close_routes R c f _
  | joined => rfl
  | spawned => rfl
  | targeted => rfl

lemma Progress.routes (h : Progress R c f R') : R'.routes = R.routes := by
  cases h with
  | closed => exact close_routes R c f _
  | gated => rfl
  | executed h => exact h.routes

lemma startCall_routes (R : PortRouter) (caller : Caller) (principal op : String) (payload : JsValue)
    (deadlineMs : ℕ) (onChunk : Bool) :
    (R.startCall caller principal op payload deadlineMs onChunk).routes = R.routes := by
  obtain ⟨r, heq⟩ | ⟨target, _, heq⟩ := startCall_cases R caller principal op payload deadlineMs onChunk
  · rw [heq]
    exact reply_routes _ _ _
  · rw [heq]
    exact (runCall_progress _ _ _).routes

lemma resume_routes (h : R.resume c = some R') : R'.routes = R.routes := by
  obtain ⟨f, _, ⟨p, r, _, _, rfl⟩ | ⟨p, r, _, _, rfl⟩ | ⟨_, _, _, _, _, _, ⟨_, rfl⟩ | ⟨text, _, rfl⟩⟩⟩ :=
    resume_cases R c h
  · obtain ⟨J, hp⟩ := afterGate_progress R c f r
    exact hp.routes
  · exact close_routes R c f _
  · exact (handOver_executed R c f).routes
  · exact close_routes R c f _

lemma register_arbiter (R : PortRouter) (entry : CompositionEntry) (m : PluginManifest)
    (tokens : OrderedMap String String) : (R.register entry m tokens).arbiter = R.arbiter := by
  change (((tabled R.routes entry m).registerGraph entry m).kernel).map Kernel.state = R.routes.kernel.map Kernel.state
  have htabled : (tabled R.routes entry m).kernel = R.routes.kernel := rfl
  rw [Routes.registerGraph, htabled]
  cases hk : R.routes.kernel with
  | none => exact congrArg (Option.map Kernel.state) (htabled.trans hk)
  | some k =>
    dsimp only
    split_ifs
    · exact congrArg (Option.map Kernel.state) (htabled.trans hk)
    · cases henter : k.enter entry m with
      | error err => rfl
      | ok k' => exact congrArg some (charts_enter henter).state

lemma withKernel_cases (R : PortRouter) (g : Kernel → PortRouter × Outcome) :
    (R.arbiter = none ∧ (R.withKernel g).1 = R) ∨
      ∃ k, R.routes.kernel = some k ∧ R.arbiter = some k.state ∧ R.withKernel g = g k := by
  unfold withKernel arbiter
  cases hk : R.routes.kernel with
  | none => exact Or.inl ⟨rfl, rfl⟩
  | some k => exact Or.inr ⟨k, rfl, rfl, rfl⟩

lemma withKey_cases (R : PortRouter) (label : String) (payload : JsValue) (g : String → PortRouter × Outcome) :
    (keyOf? payload = none ∧ (R.withKey label payload g).1 = R) ∨
      ∃ key, keyOf? payload = some key ∧ R.withKey label payload g = g key := by
  unfold withKey keyOf?
  cases payload.prop? "key" with
  | none => exact Or.inl ⟨rfl, rfl⟩
  | some value =>
    dsimp only
    cases hvalue : value.string? with
    | none => exact Or.inl ⟨by simp [hvalue], rfl⟩
    | some key =>
      dsimp only
      split_ifs with hkey
      · exact Or.inl ⟨by simp [hvalue, hkey], rfl⟩
      · exact Or.inr ⟨key, by simp [hvalue, hkey], rfl⟩

lemma stateAcquire_arbiter (R : PortRouter) (principal : String) (payload : JsValue) :
    (R.stateAcquire principal payload).1.arbiter = served R.arbiter
      ((keyOf? payload).map fun key => .acquire key principal (modeOf payload)) := by
  rw [stateAcquire]
  obtain ⟨hnone, hsame⟩ | ⟨k, _, hstate, hkernel⟩ := withKernel_cases R _
  · rw [hsame, hnone]
    cases (keyOf? payload).map fun key => Request.acquire key principal (modeOf payload) <;> rfl
  · rw [hkernel, hstate]
    obtain ⟨hkey, hsame⟩ | ⟨key, hkey, hread⟩ := withKey_cases R "state.acquire" payload _
    · rw [hsame, hkey, hstate]
      rfl
    · rw [hread, hkey, Option.map_some, served, Option.map_some, StateArbitrator.serve]
      dsimp only
      rw [← modeOf]
      cases k.state.tryAcquire key principal (modeOf payload) with
      | error err => exact hstate
      | ok state => rfl

lemma stateRelease_arbiter (R : PortRouter) (principal : String) (payload : JsValue) :
    (R.stateRelease principal payload).1.arbiter = served R.arbiter
      ((keyOf? payload).map fun key => .release key principal) := by
  rw [stateRelease]
  obtain ⟨hnone, hsame⟩ | ⟨k, _, hstate, hkernel⟩ := withKernel_cases R _
  · rw [hsame, hnone]
    cases (keyOf? payload).map fun key => Request.release key principal <;> rfl
  · rw [hkernel, hstate]
    obtain ⟨hkey, hsame⟩ | ⟨key, hkey, hread⟩ := withKey_cases R "state.release" payload _
    · rw [hsame, hkey, hstate]
      rfl
    · rw [hread, hkey]
      rfl

/-- A host op asks the arbiter at most one thing. -/
lemma hostOp_arbiter (R : PortRouter) (principal op : String) (payload : JsValue) :
    (R.hostOp principal op payload).1.arbiter = served R.arbiter (requestOf principal op payload) := by
  by_cases hacquire : op = HostOps.stateAcquire
  · have hop : R.hostOp principal op payload = R.stateAcquire principal payload := by
      rw [hacquire]
      rfl
    rw [hop, stateAcquire_arbiter, requestOf, if_pos hacquire]
  · by_cases hrelease : op = HostOps.stateRelease
    · have hop : R.hostOp principal op payload = R.stateRelease principal payload := by
        rw [hrelease]
        rfl
      rw [hop, stateRelease_arbiter, requestOf, if_neg hacquire, if_pos hrelease]
    · have hjournal : ∀ (T : PortRouter) fields, (T.journal fields).arbiter = T.arbiter := by
        intro T fields
        obtain ⟨J, hJ⟩ := journal_shape T fields
        rw [hJ]
        rfl
      have hread : ∀ g : Kernel → JsValue, (R.withKernel fun k => (R, .result (.ok (g k)))).1 = R := by
        intro g
        obtain ⟨_, hsame⟩ | ⟨k, _, _, hkernel⟩ := withKernel_cases R fun k => (R, .result (.ok (g k)))
        · exact hsame
        · rw [hkernel]
      rw [requestOf, if_neg hacquire, if_neg hrelease, served, hostOp]
      split_ifs
      · rfl
      · unfold terminate
        split
        · split
          · rfl
          · split_ifs
            · exact congrArg (fun S : Routes => S.kernel.map Kernel.state)
                ((setState_routes _ _ _).trans (failInflight_routes _ _ _))
            · rfl
        · rfl
      · cases payload.prop? "pluginId" <;> rfl
      · exact hjournal _ _
      · unfold revoke
        cases payload.prop? "pluginId" with
        | none => rfl
        | some pluginId => exact hjournal _ _
      · rw [hread]
      · rw [hread]
      · rfl

lemma requestOf_other {op : String} (hacquire : op ≠ HostOps.stateAcquire) (hrelease : op ≠ HostOps.stateRelease)
    {principal : String} (payload : JsValue) : requestOf principal op payload = none := by
  rw [requestOf, if_neg hacquire, if_neg hrelease]

lemma requestOf_plain {op : String} (h : Authority.isHostOp op = false) (principal : String) (payload : JsValue) :
    requestOf principal op payload = none := by
  have hne : ∀ host, Authority.isHostOp host = true → op ≠ host := by
    rintro host hhost rfl
    rw [hhost] at h
    cases h
  exact requestOf_other (hne _ rfl) (hne _ rfl) payload

lemma arbiter_of_routes (h : R'.routes = R.routes) : R'.arbiter = R.arbiter :=
  congrArg (fun S : Routes => S.kernel.map Kernel.state) h

lemma callAsRoot_arbiter (R : PortRouter) (op : String) (payload : JsValue) (deadlineMs : ℕ) (onChunk : Bool) :
    (R.callAsRoot op payload deadlineMs onChunk).arbiter = served R.arbiter (requestOf "root" op payload) := by
  unfold callAsRoot
  split_ifs with hhost
  · exact (arbiter_of_routes (reply_routes _ _ _)).trans (hostOp_arbiter R "root" op payload)
  · rw [requestOf_plain (Bool.eq_false_iff.mpr hhost)]
    exact arbiter_of_routes (startCall_routes _ _ _ _ _ _ _)

lemma compartmentCall_arbiter (R : PortRouter) (id : String) (m : CallMsg) :
    (R.compartmentCall id m).arbiter = served R.arbiter (R.stateRequest? (.message id (.call m))) := by
  unfold compartmentCall
  rw [stateRequest?]
  cases hcheck : R.authority.checkToken id m.capabilityToken m.op with
  | some refused =>
    exact arbiter_of_routes (reply_routes _ _ _)
  | none =>
    by_cases hhost : Authority.isHostOp m.op = true
    · dsimp only
      rw [if_pos hhost]
      exact (arbiter_of_routes (reply_routes _ _ _)).trans (hostOp_arbiter R id m.op m.payload)
    · dsimp only
      rw [if_neg hhost, requestOf_plain (Bool.eq_false_iff.mpr hhost), ite_self]
      exact arbiter_of_routes (startCall_routes _ _ _ _ _ _ _)

/-- Nothing moves the arbiter but a request to it. -/
lemma step_arbiter (hs : PortRouter.step manifests R e = some R') :
    R'.arbiter = served R.arbiter (R.stateRequest? e) := by
  cases e with
  | register entry tokens =>
    simp only [PortRouter.step] at hs
    split at hs
    · cases hs
    · split_ifs at hs
      cases hs
      exact register_arbiter R entry _ tokens
  | registerDormant entry tokens =>
    obtain ⟨m, _, rfl⟩ := Option.map_eq_some_iff.mp hs
    exact register_arbiter R entry m tokens
  | callAsRoot op payload deadlineMs onChunk =>
    cases hs
    exact callAsRoot_arbiter R op payload deadlineMs onChunk
  | message id m =>
    simp only [PortRouter.step] at hs
    split_ifs at hs
    cases hs
    cases m with
    | ready => exact arbiter_of_routes ((wakeReady_routes _ _ _).trans (setState_routes _ _ _))
    | ret c r => rfl
    | chunk c chunk => rfl
    | call m =>
      let S := (R.receive id (.call m)).setState id (fun h => { h with calls := h.calls + 1 })
      have hcall : (R.receive id (.call m)).onWorkerMessage id (.call m) = S.compartmentCall id m := rfl
      have hS : S.arbiter = R.arbiter := arbiter_of_routes (setState_routes _ _ _)
      have hauthority : S.authority = R.authority := by
        obtain ⟨K, hK, _⟩ := setState_shape (R.receive id (.call m)) id (fun h => { h with calls := h.calls + 1 })
        simp only [S, hK]
        rfl
      have hrequest : S.stateRequest? (.message id (.call m)) = R.stateRequest? (.message id (.call m)) := by
        rw [stateRequest?, stateRequest?, hauthority]
      rw [hcall, compartmentCall_arbiter, hS, hrequest]
  | crash id err =>
    simp only [PortRouter.step] at hs
    split_ifs at hs
    cases hs
    exact arbiter_of_routes ((failInflight_routes _ _ _).trans (setState_routes _ _ _))
  | deadline p =>
    simp only [PortRouter.step] at hs
    split at hs
    · cases hs
    · split_ifs at hs
      cases hs
      rfl
  | readyTimeout id =>
    obtain ⟨w, err, _, _, rfl⟩ := readyTimeout_cases R hs
    exact arbiter_of_routes (wakeReady_routes _ _ _)
  | checkedOut id =>
    obtain ⟨attempt, a, _, _, _, rfl⟩ := checkedOut_cases R hs
    let T := (R.register a.source.entry a.source.manifest a.source.tokens).init a.source.entry a.source.tokens
      a.source.config
    obtain ⟨A, W, heq⟩ := waitActive_shape T id attempt
    rw [heq]
    exact register_arbiter R a.source.entry a.source.manifest a.source.tokens
  | checkoutFailed id err =>
    obtain ⟨attempt, a, _, _, _, rfl⟩ := checkoutFailed_cases R hs
    rw [setPhase_shape]
    rfl
  | settleSpawn id =>
    obtain ⟨attempt, a, err, _, _, _, rfl⟩ := settleSpawn_cases R hs
    rw [setPhase_shape]
    rfl
  | resume c => exact arbiter_of_routes (resume_routes hs)
  | advance ms =>
    cases hs
    rfl

end Frame

section Holding

/-- The compartment was stopped, or it has crashed. -/
def Fallen (R : PortRouter) (id : String) : Prop := R.stateOf id = some .stopped ∨ R.stateOf id = some .degraded

lemma fallen_setState {id' : String} {g : CompartmentHandle → CompartmentHandle} (h : (S.setState id g).Fallen id')
    (hg : id' = id → ∀ handle, (g handle).state = .stopped ∨ (g handle).state = .degraded →
      handle.state = .stopped ∨ handle.state = .degraded) : S.Fallen id' := by
  rw [Fallen, setState_stateOf] at h
  split_ifs at h with hid
  · rw [Fallen, hid, stateOf]
    cases hhandle : S.compartments.get? id with
    | none => simp [hhandle] at h
    | some handle =>
      have hfelled : (g handle).state = .stopped ∨ (g handle).state = .degraded := by simpa [hhandle] using h
      simpa using hg hid handle hfelled
  · exact h

/-- Whatever is fallen after a turn was fallen before, unless the event fells it. -/
lemma Turn.fallen (ht : Turn manifests R e S S') (h : S'.Fallen id) :
    S.Fallen id ∨ Fells R id e ∧ (R.compartments.has id = true ∨ ∃ err, e = .crash id err) := by
  have hregister : ∀ (T : PortRouter) entry m tokens, (T.register entry m tokens).Fallen id → T.Fallen id := by
    intro T entry m tokens hT
    rw [Fallen, stateOf, PortRouter.register, OrderedMap.get?_set] at hT
    split_ifs at hT
    · simp at hT
    · exact hT
  cases ht with
  | registered entry m tokens => exact Or.inl (hregister _ _ _ _ h)
  | arrived => exact Or.inl (hregister _ _ _ _ h)
  | waiting _ id attempt =>
    obtain ⟨A, W, heq⟩ := waitActive_shape S id attempt
    rw [heq] at h
    exact Or.inl h
  | woken _ id err =>
    obtain ⟨A, W, heq⟩ := wakeReady_shape S id err
    rw [heq] at h
    exact Or.inl h
  | missed =>
    rw [setPhase_shape] at h
    exact Or.inl h
  | landed =>
    rw [setPhase_shape] at h
    exact Or.inl h
  | readied _ id' =>
    refine Or.inl (fallen_setState h fun _ handle hstate => ?_)
    split_ifs at hstate with hbooting
    · simp at hstate
    · exact hstate
  | called _ id' => exact Or.inl (fallen_setState h fun _ _ hstate => hstate)
  | crashed _ id' err he =>
    by_cases hid : id = id'
    · rw [hid, he]
      exact Or.inr ⟨.crash err, Or.inr ⟨err, rfl⟩⟩
    · exact Or.inl (fallen_setState h fun hsame => absurd hsame hid)
  | stopped _ id' hhas hfells =>
    by_cases hid : id = id'
    · rw [hid]
      exact Or.inr ⟨hfells, Or.inl hhas⟩
    · exact Or.inl (fallen_setState h fun hsame => absurd hsame hid)
  | tables => exact Or.inl h
  | noted => exact Or.inl h
  | counted => exact Or.inl h
  | framed => exact Or.inl h
  | dormant => exact Or.inl h
  | started => exact Or.inl h
  | revoked => exact Or.inl h
  | arbitrated => exact Or.inl h

lemma step_fallen (hW : R.Wired) (hs : PortRouter.step manifests R e = some R') (h : R'.Fallen id) :
    R.Fallen id ∨ Fells R id e ∧ R.compartments.has id = true := by
  have hback : R.Fallen id ∨ Fells R id e ∧ (R.compartments.has id = true ∨ ∃ err, e = .crash id err) := by
    refine (hW.turns hs).invariant (J := fun T => T.Fallen id → R.Fallen id ∨
      Fells R id e ∧ (R.compartments.has id = true ∨ ∃ err, e = .crash id err)) ?_ Or.inl h
    intro T T' ht hT hfallen
    obtain hbefore | hfells := ht.fallen hfallen
    · exact hT hbefore
    · exact Or.inr hfells
  obtain hbefore | ⟨hfells, hhas | ⟨err, rfl⟩⟩ := hback
  · exact Or.inl hbefore
  · exact Or.inr ⟨hfells, hhas⟩
  · simp only [PortRouter.step] at hs
    split_ifs at hs with hhas
    exact Or.inr ⟨hfells, hhas⟩

lemma reply_stateOf (R : PortRouter) (caller : Caller) (out : Outcome) (id : String) :
    (R.reply caller out).stateOf id = R.stateOf id := by
  obtain ⟨L, heq⟩ | ⟨id, callId, r, heq⟩ := reply_shape R caller out
  · rw [heq]
    rfl
  · rw [heq]
    rfl

lemma failInflight_stateOf (R : PortRouter) (id reason id' : String) :
    (R.failInflight id reason).stateOf id' = R.stateOf id' := by
  obtain ⟨A, W, heq⟩ := wakeReady_shape R id (some s!"Error: {reason}")
  rw [failInflight, heq]
  rfl

lemma terminate_fallen (hhas : R.compartments.has id = true) {payload : JsValue}
    (hid : payload.prop? "pluginId" = some (.str id)) (callerId : String) :
    (R.terminate callerId payload).1.Fallen id := by
  obtain ⟨fast, hfast⟩ : ∃ fast, payload.prop? "fast" = some fast := by
    cases payload with
    | undefined => cases hid
    | null => cases hid
    | _ => exact ⟨_, rfl⟩
  rw [terminate, hid, hfast]
  simp only [JsValue.string?, hhas, if_true]
  left
  obtain ⟨h, hh⟩ := (OrderedMap.has_iff _ _).mp hhas
  have hkept := failInflight_stateOf R id (terminateReason callerId fast) id
  rw [stateOf, stateOf, hh, Option.map_some] at hkept
  obtain ⟨h', hh', _⟩ := Option.map_eq_some_iff.mp hkept
  rw [setState_stateOf, if_pos rfl, hh']
  rfl

/-- What an event fells is fallen after it. -/
lemma fallen_of_fells (hs : PortRouter.step manifests R e = some R') (hfells : Fells R id e)
    (hhas : R.compartments.has id = true) : R'.Fallen id := by
  cases hfells with
  | crash err =>
    simp only [PortRouter.step, hhas, if_true, Option.some.injEq] at hs
    obtain ⟨h, hh⟩ := (OrderedMap.has_iff _ _).mp hhas
    right
    rw [← hs, onCrash, failInflight_stateOf, setState_stateOf, if_pos rfl, hh]
    rfl
  | root payload deadlineMs onChunk hid =>
    cases hs
    have hcall : R.callAsRoot HostOps.compartmentTerminate payload deadlineMs onChunk =
        (R.terminate "root" payload).1.reply .root (R.terminate "root" payload).2 := rfl
    rw [hcall, Fallen, reply_stateOf]
    exact terminate_fallen hhas hid "root"
  | compartment callerId m hop htoken hid =>
    simp only [PortRouter.step] at hs
    split_ifs at hs
    cases hs
    let S := (R.receive callerId (.call m)).setState callerId (fun h => { h with calls := h.calls + 1 })
    have hcall : (R.receive callerId (.call m)).onWorkerMessage callerId (.call m) = S.compartmentCall callerId m := rfl
    have hauthority : S.authority = R.authority := by
      obtain ⟨K, hK, _⟩ := setState_shape (R.receive callerId (.call m)) callerId
        (fun h => { h with calls := h.calls + 1 })
      simp only [S, hK]
      rfl
    have hchecked : S.compartmentCall callerId m =
        (S.terminate callerId m.payload).1.reply (.compartment callerId m.callId) (S.terminate callerId m.payload).2 := by
      rw [compartmentCall, hauthority, htoken, hop]
      rfl
    have hkept : S.compartments.has id = true := (setState_has _ _ _ _).trans hhas
    rw [hcall, hchecked, Fallen, reply_stateOf]
    exact terminate_fallen hkept hid callerId

lemma stateRequest_of_fells (hfells : Fells R id e) : R.stateRequest? e = none := by
  have hterminate : ∀ principal payload, requestOf principal HostOps.compartmentTerminate payload = none :=
    fun principal payload => requestOf_other (by decide) (by decide) payload
  cases hfells with
  | crash err => rfl
  | root payload deadlineMs onChunk hid => exact hterminate "root" payload
  | compartment callerId m hop htoken hid => rw [stateRequest?, hop, hterminate, ite_self]

/-- The event fells a compartment that holds a key, or a fallen one takes a key that is free. -/
inductive Strands (R : PortRouter) (e : Event) : Prop
  | felled (key : String) (h : Holder) : h ∈ R.holders key → Fells R h.principal e →
    R.compartments.has h.principal = true → Strands R e
  | taken (key principal : String) (mode : LockMode) : R.stateRequest? e = some (.acquire key principal mode) →
    Grantable (R.holders key) mode → R.Fallen principal → Strands R e

lemma mem_holders_of_served {r : Option Request} (h : R'.arbiter = served R.arbiter r) {key : String} {x : Holder}
    (hx : x ∈ R'.holders key) : x ∈ R.holders key ∨
      ∃ mode, r = some (.acquire key x.principal mode) ∧ Grantable (R.holders key) mode := by
  rw [holders, h] at hx
  unfold holders
  cases r with
  | none => exact Or.inl hx
  | some request =>
    cases ha : R.arbiter with
    | none =>
      rw [ha] at hx
      exact absurd hx List.not_mem_nil
    | some a =>
      rw [ha] at hx
      obtain hold | ⟨mode, hrequest, hfree⟩ := StateArbitrator.mem_serve hx
      · exact Or.inl hold
      · exact Or.inr ⟨mode, congrArg some hrequest, hfree⟩

lemma compatible_of_served {r : Option Request} (h : R'.arbiter = served R.arbiter r)
    (hR : ∀ key, Compatible (R.holders key)) (key : String) : Compatible (R'.holders key) := by
  unfold holders at hR ⊢
  rw [h]
  cases r with
  | none => exact hR key
  | some request =>
    cases ha : R.arbiter with
    | none => exact Or.inl (fun x hx => absurd hx List.not_mem_nil)
    | some a =>
      rw [ha] at hR
      exact StateArbitrator.compatible_serve hR request key

lemma hostOp_stateOf {principal op : String} {payload : JsValue} {r : Request}
    (h : requestOf principal op payload = some r) (id : String) :
    Authority.isHostOp op = true ∧ (R.hostOp principal op payload).1.stateOf id = R.stateOf id := by
  unfold requestOf at h
  split_ifs at h with hacquire hrelease
  · have hop : R.hostOp principal op payload = R.stateAcquire principal payload := by
      rw [hacquire]
      rfl
    refine ⟨by rw [hacquire]; rfl, ?_⟩
    rw [hop, stateAcquire]
    obtain ⟨_, hsame⟩ | ⟨k, _, _, hkernel⟩ := withKernel_cases R _
    · rw [hsame]
    · rw [hkernel]
      obtain ⟨_, hsame⟩ | ⟨key, _, hread⟩ := withKey_cases R "state.acquire" payload _
      · rw [hsame]
      · rw [hread]
        dsimp only
        split <;> rfl
  · have hop : R.hostOp principal op payload = R.stateRelease principal payload := by
      rw [hrelease]
      rfl
    refine ⟨by rw [hrelease]; rfl, ?_⟩
    rw [hop, stateRelease]
    obtain ⟨_, hsame⟩ | ⟨k, _, _, hkernel⟩ := withKernel_cases R _
    · rw [hsame]
    · rw [hkernel]
      obtain ⟨_, hsame⟩ | ⟨key, _, hread⟩ := withKey_cases R "state.release" payload _
      · rw [hsame]
      · rw [hread]
        rfl

/-- A request leaves the compartments in their states. -/
lemma stateOf_of_request (hs : PortRouter.step manifests R e = some R') {r : Request}
    (hr : R.stateRequest? e = some r) (id : String) : R'.stateOf id = R.stateOf id := by
  cases e with
  | callAsRoot op payload deadlineMs onChunk =>
    cases hs
    obtain ⟨hhost, hstate⟩ := hostOp_stateOf (R := R) hr id
    rw [callAsRoot, if_pos hhost]
    exact (reply_stateOf _ _ _ _).trans hstate
  | message callerId m =>
    cases m with
    | call m =>
      simp only [PortRouter.step] at hs
      split_ifs at hs
      cases hs
      let S := (R.receive callerId (.call m)).setState callerId (fun h => { h with calls := h.calls + 1 })
      have hcall : (R.receive callerId (.call m)).onWorkerMessage callerId (.call m) = S.compartmentCall callerId m :=
        rfl
      have hauthority : S.authority = R.authority := by
        obtain ⟨K, hK, _⟩ := setState_shape (R.receive callerId (.call m)) callerId
          (fun h => { h with calls := h.calls + 1 })
        simp only [S, hK]
        rfl
      have hS : S.stateOf id = R.stateOf id := by
        rw [setState_stateOf]
        split_ifs with hid
        · rw [hid]
          rfl
        · rfl
      rw [stateRequest?] at hr
      cases hcheck : R.authority.checkToken callerId m.capabilityToken m.op with
      | some refused =>
        rw [hcheck] at hr
        cases hr
      | none =>
        rw [hcheck] at hr
        obtain ⟨hhost, hstate⟩ := hostOp_stateOf (R := S) hr id
        rw [hcall, compartmentCall, hauthority, hcheck]
        dsimp only
        rw [if_pos hhost]
        exact (reply_stateOf _ _ _ _).trans (hstate.trans hS)
    | _ => cases hr
  | _ => cases hr

/-- No key is held by a compartment that is fallen. -/
def Released (R : PortRouter) : Prop := ∀ key, ∀ h ∈ R.holders key, ¬ R.Fallen h.principal

lemma Released.step (hW : R.Wired) (h : R.Released) (hs : PortRouter.step manifests R e = some R')
    (hok : ¬ R.Strands e) : R'.Released := by
  intro key x hx hfallen
  obtain hbefore | ⟨hfells, hhas⟩ := step_fallen hW hs hfallen
  · obtain hold | ⟨mode, hrequest, hfree⟩ := mem_holders_of_served (step_arbiter hs) hx
    · exact h key x hold hbefore
    · exact hok (.taken key x.principal mode hrequest hfree hbefore)
  · have hnone := stateRequest_of_fells hfells
    obtain hold | ⟨mode, hrequest, hfree⟩ := mem_holders_of_served (step_arbiter hs) hx
    · exact hok (.felled key x hold hfells hhas)
    · rw [hnone] at hrequest
      cases hrequest

lemma Strands.not_released (h : R.Strands e) (hs : PortRouter.step manifests R e = some R')
    (harbiter : ∃ a, R.arbiter = some a) : ¬ R'.Released := by
  intro hreleased
  have hserved := step_arbiter hs
  cases h with
  | felled key x hx hfells hhas =>
    rw [stateRequest_of_fells hfells] at hserved
    have hkept : x ∈ R'.holders key := by
      rw [holders, hserved]
      exact hx
    exact hreleased key x hkept (fallen_of_fells hs hfells hhas)
  | taken key principal mode hrequest hfree hfallen =>
    obtain ⟨a, ha⟩ := harbiter
    rw [hrequest, ha] at hserved
    have hheld : a.holdersOf key = R.holders key := by
      rw [holders, ha]
      rfl
    have htaken : (⟨principal, mode⟩ : Holder) ∈ R'.holders key := by
      obtain ⟨hrefused, _⟩ | ⟨_, hafter⟩ := StateArbitrator.serve_acquire_cases a key principal mode
      · exact absurd (hheld ▸ hfree) hrefused
      · rw [holders, hserved]
        change (⟨principal, mode⟩ : Holder) ∈ (a.serve (.acquire key principal mode)).holdersOf key
        rw [hafter, if_pos rfl]
        exact List.mem_append_right _ (List.mem_singleton_self _)
    apply hreleased key _ htaken
    rw [Fallen, stateOf_of_request hs hrequest]
    exact hfallen

end Holding

section Runs

/-- Routers on a kernel that has just been booted. -/
def booted (manifests : OrderedMap String PluginManifest) (signer : Signer) : System PortRouter Event where
  init R := ∃ journaling k onDemandSpawn, bootstrapKernel signer = .ok k ∧ R = fresh journaling (some k) onDemandSpawn
  step := step manifests

variable {signer : Signer} {ok : PortRouter → Event → Prop}

lemma booted_system (h : (booted manifests signer).Reachable ok R) : (system manifests).Reachable ok R := by
  induction h with
  | start hi =>
    obtain ⟨journaling, k, onDemandSpawn, _, rfl⟩ := hi
    exact .start ⟨journaling, some k, onDemandSpawn, rfl⟩
  | next _ ho hs ih => exact .next ih ho hs

lemma booted_arbiter (h : (booted manifests signer).Reachable ok R) :
    (∃ a, R.arbiter = some a) ∧ ∀ key, Compatible (R.holders key) := by
  refine h.invariant (P := fun R => (∃ a, R.arbiter = some a) ∧ ∀ key, Compatible (R.holders key)) ?_ ?_
  · rintro R ⟨journaling, k, onDemandSpawn, hk, rfl⟩
    obtain ⟨_, _, _, hstate⟩ := bootstrapKernel_bound hk
    refine ⟨⟨k.state, rfl⟩, fun key => ?_⟩
    change Compatible (k.state.holdersOf key)
    rw [hstate]
    exact Or.inl (fun x hx => absurd hx List.not_mem_nil)
  · rintro R e R' _ ⟨⟨a, ha⟩, hcompatible⟩ _ hs
    have harbiter := step_arbiter hs
    refine ⟨?_, compatible_of_served harbiter hcompatible⟩
    rw [harbiter, ha]
    cases R.stateRequest? e with
    | none => exact ⟨a, rfl⟩
    | some r => exact ⟨a.serve r, rfl⟩

lemma booted_released (h : (booted manifests signer).Reachable ok R) (hok : ∀ S e, ok S e → ¬ S.Strands e) :
    R.Released := by
  refine h.invariant (P := Released) ?_ ?_
  · rintro R ⟨journaling, k, onDemandSpawn, hk, rfl⟩ key x hx
    obtain ⟨_, _, _, hstate⟩ := bootstrapKernel_bound hk
    change x ∈ k.state.holdersOf key at hx
    rw [hstate] at hx
    exact absurd hx List.not_mem_nil
  · intro R e R' hR hreleased ho hs
    exact hreleased.step (Wired.reachable (booted_system hR)) hs (hok R e ho)

/-- Shared holders or one exclusive holder under every key of every run; a release of who holds nothing changes
nothing; and keys are held by no fallen compartment as long as no step strands one, which strands it at once. -/
theorem arbitration_iff (h : (booted manifests signer).Reachable ok R) :
    (∀ key, Compatible (R.holders key)) ∧
      (∀ e R' key principal, PortRouter.step manifests R e = some R' →
        R.stateRequest? e = some (.release key principal) → (∀ x ∈ R.holders key, x.principal ≠ principal) →
          R'.arbiter = R.arbiter) ∧
        ((∀ S e, ok S e → ¬ S.Strands e) → R.Released) ∧
          ∀ e R', PortRouter.step manifests R e = some R' → R.Released → (R'.Released ↔ ¬ R.Strands e) := by
  obtain ⟨⟨a, ha⟩, hcompatible⟩ := booted_arbiter h
  refine ⟨hcompatible, fun e R' key principal hs hrequest hnot => ?_, booted_released h, fun e R' hs hreleased => ?_⟩
  · rw [step_arbiter hs, hrequest, ha]
    have hheld : a.holdersOf key = R.holders key := by
      rw [holders, ha]
      rfl
    exact congrArg some (StateArbitrator.release_of_not_holder (hheld ▸ hnot))
  · constructor
    · exact fun hafter hstrands => hstrands.not_released hs ⟨a, ha⟩ hafter
    · exact fun hok => hreleased.step (Wired.reachable (booted_system h)) hs hok

def locking : JsValue := .obj [("key", .str "kernel:test"), ("mode", .str "exclusive")]

def rootLocks : Event := .callAsRoot HostOps.stateAcquire locking 5000 false

lemma not_strands_rootLocks (h : R.stateOf "root" = none) : ¬ R.Strands rootLocks := by
  have hnone : ¬ R.Fallen "root" := by
    rintro (hstate | hstate)
    · rw [h] at hstate
      cases hstate
    · rw [h] at hstate
      cases hstate
  rintro (⟨key, x, _, hfells, _⟩ | ⟨key, principal, mode, hrequest, _, hfallen⟩)
  · have hrequest := stateRequest_of_fells hfells
    have hasked : R.stateRequest? rootLocks = some (.acquire "kernel:test" "root" .exclusive) := rfl
    rw [hasked] at hrequest
    cases hrequest
  · cases hrequest
    exact hnone hfallen

/-- The root takes a key of a router that has just been booted. -/
theorem arbitration_iff_root : ∃ R, (booted (Sample.manifests none none) namingSigner).Reachable
    (fun S e => ¬ S.Strands e) R ∧ R.holders "kernel:test" = [⟨"root", .exclusive⟩] ∧ R.Released := by
  have hrun : (bootstrapKernel namingSigner).toOption.map (fun k =>
      ((fresh false (some k) true).callAsRoot HostOps.stateAcquire locking 5000 false).holders "kernel:test" =
        [⟨"root", .exclusive⟩] && (fresh false (some k) true).stateOf "root" = none) = some true := by
    decide
  obtain ⟨k, hk, hheld⟩ := Json.ok_of_toOption hrun
  rw [Bool.and_eq_true, decide_eq_true_eq, decide_eq_true_eq] at hheld
  have hreach : (booted (Sample.manifests none none) namingSigner).Reachable (fun S e => ¬ S.Strands e)
      ((fresh false (some k) true).callAsRoot HostOps.stateAcquire locking 5000 false) :=
    .next (.start ⟨false, k, true, hk, rfl⟩) (not_strands_rootLocks hheld.2) rfl
  exact ⟨_, hreach, hheld.1, (arbitration_iff hreach).2.2.1 fun S e hok => hok⟩

def lockingNotes : CompositionEntry := Sample.entry "notes" [] [HostCaps.stateArbitration] 1

/-- Notes takes a key and crashes. -/
def crashing : List Event :=
  [.register lockingNotes (.ofEntries [(HostCaps.stateArbitration, "t_0")]),
    .message "notes" (.call ⟨"1", "t_0", HostOps.stateAcquire, locking, 5000⟩), .crash "notes" "Error: exit 1"]

/-- A crashed holder keeps its key. -/
theorem crashed_holder : ¬ ∀ (manifests : OrderedMap String PluginManifest) (signer : Signer) (R : PortRouter),
    (booted manifests signer).Reachable System.free R → (∀ key, Compatible (R.holders key)) ∧ R.Released := by
  intro hclaim
  have hrun : (bootstrapKernel namingSigner).toOption.map (fun k =>
      (((booted (Sample.manifests none none) namingSigner).exec System.free (fresh false (some k) true) crashing).map
        fun R => R.holders "kernel:test" = [⟨"notes", .exclusive⟩] && R.stateOf "notes" = some .degraded)) =
          some (some true) := by
    decide
  obtain ⟨k, hk, hafter⟩ := Json.ok_of_toOption hrun
  obtain ⟨R, hR, hheld⟩ := System.exec_spec (M := booted (Sample.manifests none none) namingSigner)
    ⟨false, k, true, hk, rfl⟩ hafter
  rw [Bool.and_eq_true, decide_eq_true_eq, decide_eq_true_eq] at hheld
  have hnotes : (⟨"notes", .exclusive⟩ : Holder) ∈ R.holders "kernel:test" := by
    rw [hheld.1]
    exact List.mem_singleton_self _
  exact (hclaim _ _ R hR).2 "kernel:test" _ hnotes (Or.inr hheld.2)

end Runs

end PortRouter

end VivimOmega.Host

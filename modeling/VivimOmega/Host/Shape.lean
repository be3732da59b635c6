import VivimOmega.Host.Run

/-! What each method of the router leaves alone: the shape of the state after it. -/

namespace VivimOmega.Host

open Library Contracts

namespace Routes

lemma registerGraph_manifests (S : Routes) (entry : CompositionEntry) (m : PluginManifest) :
    (S.registerGraph entry m).manifests = S.manifests := by
  unfold registerGraph
  cases S.kernel with
  | none => rfl
  | some k =>
    dsimp only
    split_ifs
    · rfl
    · cases k.enter entry m <;> rfl

lemma enrol_manifests (S : Routes) (entry : CompositionEntry) (m : PluginManifest) :
    (S.enrol entry m).manifests = S.manifests.set entry.id m := registerGraph_manifests _ _ _

end Routes

namespace PortRouter

variable (R : PortRouter)

lemma reply_shape (caller : Caller) (out : Outcome) :
    (∃ L, R.reply caller out = { R with rootReplies := L }) ∨
      ∃ id callId r, R.reply caller out = R.post id (.result callId r) := by
  cases caller with
  | root => exact .inl ⟨_, rfl⟩
  | compartment id callId =>
    cases out with
    | threw message => exact .inl ⟨R.rootReplies, rfl⟩
    | result r =>
      simp only [reply]
      split_ifs
      · exact .inr ⟨id, callId, r, rfl⟩
      · exact .inl ⟨R.rootReplies, rfl⟩

lemma journal_shape (fields : List (String × JsValue)) :
    ∃ J, R.journal fields = { R with lawJournal := J } := by
  unfold journal
  split_ifs
  · exact ⟨_, rfl⟩
  · exact ⟨R.lawJournal, rfl⟩

lemma setPhase_shape (attempt : ℕ) (phase : SpawnPhase) :
    R.setPhase attempt phase =
      { R with
        spawner := { R.spawner with
          attempts := match R.spawner.attempts.get? attempt with
            | none => R.spawner.attempts
            | some a => R.spawner.attempts.set attempt { a with phase } } } := by
  unfold setPhase
  cases R.spawner.attempts.get? attempt <;> rfl

lemma setPhase_spawner (attempt : ℕ) (phase : SpawnPhase) :
    ∃ A, R.setPhase attempt phase = { R with spawner := { R.spawner with attempts := A } } :=
  ⟨_, setPhase_shape R attempt phase⟩

lemma wakeReady_shape (id : String) (err : Option String) :
    ∃ A W, R.wakeReady id err =
      { R with spawner := { R.spawner with attempts := A, readyWaiters := W } } := by
  unfold wakeReady
  cases R.spawner.readyWaiters.get? id with
  | none => exact ⟨_, _, rfl⟩
  | some w =>
    dsimp only
    rw [setPhase_shape]
    exact ⟨_, _, rfl⟩

lemma waitActive_shape (id : String) (attempt : ℕ) :
    ∃ A W, R.waitActive id attempt =
      { R with spawner := { R.spawner with attempts := A, readyWaiters := W } } := by
  unfold waitActive
  split
  · rw [setPhase_shape]
    exact ⟨_, R.spawner.readyWaiters, rfl⟩
  · rw [setPhase_shape]
    exact ⟨_, R.spawner.readyWaiters, rfl⟩
  · rw [setPhase_shape]
    exact ⟨_, _, rfl⟩

/-- Attempts change their phase only. -/
def Phased (S S' : PortRouter) : Prop :=
  ∀ n a, S'.spawner.attempts.get? n = some a →
    ∃ a', S.spawner.attempts.get? n = some a' ∧ a'.id = a.id ∧ a'.source = a.source

lemma setPhase_get (attempt : ℕ) (phase : SpawnPhase) (n : ℕ) :
    (R.setPhase attempt phase).spawner.attempts.get? n =
      if n = attempt then (R.spawner.attempts.get? attempt).map (fun a => { a with phase })
      else R.spawner.attempts.get? n := by
  unfold setPhase
  cases ha : R.spawner.attempts.get? attempt with
  | none =>
    split_ifs with hn
    · rw [hn, ha]
      rfl
    · rfl
  | some a =>
    simp only [OrderedMap.get?_set]
    rfl

lemma setPhase_phased (attempt : ℕ) (phase : SpawnPhase) : Phased R (R.setPhase attempt phase) := by
  intro n a hget
  rw [setPhase_get] at hget
  split_ifs at hget with hn
  · obtain ⟨a', ha', rfl⟩ := Option.map_eq_some_iff.mp hget
    exact ⟨a', hn ▸ ha', rfl, rfl⟩
  · exact ⟨a, hget, rfl, rfl⟩

lemma wakeReady_phased (id : String) (err : Option String) : Phased R (R.wakeReady id err) := by
  unfold wakeReady
  cases R.spawner.readyWaiters.get? id with
  | none => exact fun n a hget => ⟨a, hget, rfl, rfl⟩
  | some w => exact setPhase_phased _ w.attempt _

lemma waitActive_phased (id : String) (attempt : ℕ) : Phased R (R.waitActive id attempt) := by
  unfold waitActive
  split
  · exact setPhase_phased _ attempt _
  · exact setPhase_phased _ attempt _
  · exact setPhase_phased _ attempt _

lemma setState_shape (id : String) (g : CompartmentHandle → CompartmentHandle) :
    ∃ K, R.setState id g = { R with compartments := K } ∧
      ∀ id', K.get? id' = if id' = id then (R.compartments.get? id).map g
        else R.compartments.get? id' := by
  unfold setState
  cases hh : R.compartments.get? id with
  | none =>
    refine ⟨R.compartments, rfl, fun id' => ?_⟩
    split_ifs with hid
    · rw [hid, hh]
      rfl
    · rfl
  | some h =>
    refine ⟨R.compartments.set id (g h), rfl, fun id' => ?_⟩
    rw [OrderedMap.get?_set]
    rfl

lemma setState_has (id : String) (g : CompartmentHandle → CompartmentHandle) (id' : String) :
    (R.setState id g).compartments.has id' = R.compartments.has id' := by
  obtain ⟨K, heq, hK⟩ := setState_shape R id g
  rw [heq]
  simp only [OrderedMap.has, hK]
  split_ifs with hid
  · rw [hid]
    cases R.compartments.get? id <;> rfl
  · rfl

def stateOf (R : PortRouter) (id : String) : Option HandleState :=
  (R.compartments.get? id).map CompartmentHandle.state

lemma setState_stateOf (id : String) (g : CompartmentHandle → CompartmentHandle) (id' : String) :
    (R.setState id g).stateOf id' =
      if id' = id then (R.compartments.get? id).map (fun h => (g h).state) else R.stateOf id' := by
  obtain ⟨K, heq, hK⟩ := setState_shape R id g
  rw [heq]
  simp only [stateOf, hK]
  split_ifs
  · rw [Option.map_map]
    rfl
  · rfl

/-- What a host op can do: nothing, journal, terminate a compartment, revoke tokens, or move the
state arbiter of the kernel. -/
inductive HostEffect (R : PortRouter) (op : String) (payload : JsValue) : PortRouter → Prop
  | same : HostEffect R op payload R
  | journaled (J : List (ℕ × List (String × JsValue))) :
    HostEffect R op payload { R with lawJournal := J }
  | terminated (id reason : String) : op = HostOps.compartmentTerminate →
    payload.prop? "pluginId" = some (.str id) → R.compartments.has id = true →
    HostEffect R op payload
      ((R.failInflight id reason).setState id (fun h => { h with state := .stopped }))
  | revoked (pluginId : JsValue) (J : List (ℕ × List (String × JsValue))) :
    HostEffect R op payload { R with authority := R.authority.revoke pluginId, lawJournal := J }
  | arbitrated (k : Kernel) (state : StateArbitrator) : R.routes.kernel = some k →
    HostEffect R op payload (R.setKernel { k with state })

lemma terminate_effect (callerId : String) (payload : JsValue) :
    HostEffect R HostOps.compartmentTerminate payload (R.terminate callerId payload).1 := by
  unfold terminate
  split
  · rename_i pluginId fast hp _
    cases pluginId with
    | str id =>
      dsimp only [JsValue.string?]
      split_ifs with hhas
      · exact .terminated id _ rfl hp hhas
      · exact .same
    | undefined => exact .same
    | null => exact .same
    | bool b => exact .same
    | num q => exact .same
    | arr items => exact .same
    | obj fields => exact .same
  · exact .same

lemma revoke_effect (callerId op : String) (payload : JsValue) :
    HostEffect R op payload (R.revoke callerId payload).1 := by
  unfold revoke
  cases payload.prop? "pluginId" with
  | none => exact .same
  | some pluginId =>
    obtain ⟨J, hJ⟩ := journal_shape { R with authority := R.authority.revoke pluginId }
      [("principal", .str callerId), ("op", .str "host.tokens.revoke"), ("decision", .str "allow"),
        ("reason", .str (revokeReason pluginId (R.authority.affected pluginId)
          (R.authority.revoke pluginId).generation)),
        ("affected", .num (R.authority.affected pluginId)), ("scope", revokeScope pluginId)]
    dsimp only
    rw [hJ]
    exact .revoked pluginId J

lemma withKey_effect {op : String} {payload : JsValue} (label : String)
    (g : String → PortRouter × Outcome) (hg : ∀ key, HostEffect R op payload (g key).1) :
    HostEffect R op payload (R.withKey label payload g).1 := by
  unfold withKey
  cases payload.prop? "key" with
  | none => exact .same
  | some key =>
    dsimp only
    cases key.string? with
    | none => exact .same
    | some text =>
      dsimp only
      split_ifs
      · exact .same
      · exact hg text

lemma withKernel_effect {op : String} {payload : JsValue} (g : Kernel → PortRouter × Outcome)
    (hg : ∀ k, R.routes.kernel = some k → HostEffect R op payload (g k).1) :
    HostEffect R op payload (R.withKernel g).1 := by
  unfold withKernel
  cases hk : R.routes.kernel with
  | none => exact .same
  | some k => exact hg k hk

lemma hostOp_effect (callerId op : String) (payload : JsValue) :
    HostEffect R op payload (R.hostOp callerId op payload).1 := by
  unfold hostOp
  split_ifs with _ hterminate
  · exact .same
  · rw [hterminate]
    exact terminate_effect R callerId payload
  · cases payload.prop? "pluginId" <;> exact .same
  · obtain ⟨J, hJ⟩ := journal_shape R payload.spread
    rw [hJ]
    exact .journaled J
  · exact revoke_effect R callerId op payload
  · apply withKernel_effect
    intro k hk
    apply withKey_effect
    intro key
    dsimp only
    split
    · exact .same
    · exact .arbitrated k _ hk
  · apply withKernel_effect
    intro k hk
    apply withKey_effect
    intro key
    exact .arbitrated k _ hk
  · exact withKernel_effect R _ (fun k _ => .same)
  · exact withKernel_effect R _ (fun k _ => .same)
  · exact .same

/-- A call is answered at once by a register of the token check, answered by a host op, or opened
under the next causation id. -/
lemma compartmentCall_cases (callerId : String) (m : CallMsg) :
    (∃ r, R.authority.checkToken callerId m.capabilityToken m.op = some r ∧
        R.compartmentCall callerId m = R.reply (.compartment callerId m.callId) (.result r)) ∨
      (R.authority.checkToken callerId m.capabilityToken m.op = none ∧
        ((Authority.isHostOp m.op = true ∧
          ∃ R' out, HostEffect R m.op m.payload R' ∧
            R.compartmentCall callerId m = R'.reply (.compartment callerId m.callId) out) ∨
        (Authority.isHostOp m.op = false ∧
          R.compartmentCall callerId m =
            R.startCall (.compartment callerId m.callId) callerId m.op m.payload m.deadlineMs
              false))) := by
  unfold compartmentCall
  cases ht : R.authority.checkToken callerId m.capabilityToken m.op with
  | some r => exact .inl ⟨r, rfl, rfl⟩
  | none =>
    refine .inr ⟨rfl, ?_⟩
    dsimp only
    split_ifs with hhost
    · exact .inl ⟨hhost, _, _, hostOp_effect R callerId m.op m.payload, rfl⟩
    · exact .inr ⟨by simpa using hhost, rfl⟩

lemma callAsRoot_cases (op : String) (payload : JsValue) (deadlineMs : ℕ) (onChunk : Bool) :
    (Authority.isHostOp op = true ∧ ∃ R' out, HostEffect R op payload R' ∧
        R.callAsRoot op payload deadlineMs onChunk = R'.reply .root out) ∨
      (Authority.isHostOp op = false ∧ R.callAsRoot op payload deadlineMs onChunk =
        R.startCall .root "root" op payload deadlineMs onChunk) := by
  unfold callAsRoot
  split_ifs with hhost
  · exact .inl ⟨hhost, _, _, hostOp_effect R "root" op payload, rfl⟩
  · exact .inr ⟨by simpa using hhost, rfl⟩

lemma startCall_cases (caller : Caller) (principal op : String) (payload : JsValue)
    (deadlineMs : ℕ) (onChunk : Bool) :
    (∃ r, R.startCall caller principal op payload deadlineMs onChunk =
        ({ R with callSeq := R.callSeq + 1 } : PortRouter).reply caller (.result r)) ∨
      ∃ target, R.routes.resolveTarget principal op = some target ∧
        R.startCall caller principal op payload deadlineMs onChunk =
          ({ R with callSeq := R.callSeq + 1 } : PortRouter).runCall (causation (R.callSeq + 1))
            (R.openFrame caller principal payload deadlineMs onChunk target) :=
  dispatch_cases _ _ caller principal op payload deadlineMs onChunk

lemma checkedOut_cases {id : String} {R' : PortRouter} (h : R.checkedOut id = some R') :
    ∃ attempt a, R.spawner.spawning.get? id = some attempt ∧
      R.spawner.attempts.get? attempt = some a ∧ a.phase = .checkout ∧
      R' = ((R.register a.source.entry a.source.manifest a.source.tokens).init a.source.entry
        a.source.tokens a.source.config).waitActive id attempt := by
  unfold checkedOut at h
  obtain ⟨attempt, hs, h⟩ := Option.bind_eq_some_iff.mp h
  obtain ⟨a, ha, h⟩ := Option.bind_eq_some_iff.mp h
  split_ifs at h with hp
  exact ⟨attempt, a, hs, ha, hp, (Option.some.inj h).symm⟩

lemma checkoutFailed_cases {id err : String} {R' : PortRouter}
    (h : R.checkoutFailed id err = some R') :
    ∃ attempt a, R.spawner.spawning.get? id = some attempt ∧
      R.spawner.attempts.get? attempt = some a ∧ a.phase = .checkout ∧
      R' = R.setPhase attempt (.settled (some err)) := by
  unfold checkoutFailed at h
  obtain ⟨attempt, hs, h⟩ := Option.bind_eq_some_iff.mp h
  obtain ⟨a, ha, h⟩ := Option.bind_eq_some_iff.mp h
  split_ifs at h with hp
  exact ⟨attempt, a, hs, ha, hp, (Option.some.inj h).symm⟩

lemma readyTimeout_cases {id : String} {R' : PortRouter} (h : R.readyTimeout id = some R') :
    ∃ w err, R.spawner.readyWaiters.get? id = some w ∧ w.due ≤ R.ports.now ∧
      R' = R.wakeReady id (some err) := by
  unfold readyTimeout at h
  obtain ⟨w, hw, h⟩ := Option.bind_eq_some_iff.mp h
  split_ifs at h with hdue
  exact ⟨w, _, hw, hdue, (Option.some.inj h).symm⟩

/-- The spawner after the single flight of `id` has landed with `err`. -/
def landed (id : String) (err : Option String) : PortRouter :=
  { R with
    spawner := { R.spawner with
      dormant := if err.isNone then R.spawner.dormant.delete id else R.spawner.dormant
      spawning := R.spawner.spawning.delete id } }

lemma settleSpawn_cases {id : String} {R' : PortRouter} (h : R.settleSpawn id = some R') :
    ∃ attempt a err, R.spawner.spawning.get? id = some attempt ∧
      R.spawner.attempts.get? attempt = some a ∧ a.phase = .settled err ∧
      R' = (R.landed id err).setPhase attempt (.over err) := by
  unfold settleSpawn at h
  obtain ⟨attempt, hs, h⟩ := Option.bind_eq_some_iff.mp h
  obtain ⟨a, ha, h⟩ := Option.bind_eq_some_iff.mp h
  cases hp : a.phase with
  | settled err =>
    simp only [hp] at h
    exact ⟨attempt, a, err, hs, ha, hp, (Option.some.inj h).symm⟩
  | checkout => simp [hp] at h
  | ready => simp [hp] at h
  | «over» err => simp [hp] at h

end PortRouter

end VivimOmega.Host

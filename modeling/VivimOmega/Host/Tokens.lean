import VivimOmega.Host.Turns

/-! Tokens: what a record says, how records are installed, and what becomes of them over a run. -/

namespace VivimOmega.Host

open Library Contracts

namespace Authority

variable {A A' : Authority} {p t id : String}

/-- The record `installTokens` makes for a token found under `key`. -/
def recordFor (A : Authority) (id key token : String) : TokenRecord :=
  { token, pluginId := id, cap := effectiveCap key, gen := A.generation }

lemma installToken_get (id key token t : String) :
    (A.installToken id key token).tokens.get? t =
      if A.tokens.has t then A.tokens.get? t
      else if t = token then some (A.recordFor id key token) else none := by
  by_cases hold : A.tokens.has token = true
  · have hsame : A.installToken id key token = A := by rw [installToken, if_pos hold]
    rw [hsame]
    split_ifs with ht hkey
    · rfl
    · exact absurd (hkey ▸ hold) ht
    · exact (OrderedMap.has_eq_false _ _).mp (by simpa using ht)
  · have hset : (A.installToken id key token).tokens =
        A.tokens.set token (A.recordFor id key token) := by
      rw [installToken, if_neg hold]
      rfl
    rw [hset, OrderedMap.get?_set]
    split_ifs with hkey ht ht
    · exact absurd (hkey ▸ ht) hold
    · rfl
    · rfl
    · exact (OrderedMap.has_eq_false _ _).mp (by simpa using ht)

lemma installToken_generation (id key token : String) :
    (A.installToken id key token).generation = A.generation := by
  unfold installToken
  split_ifs <;> rfl

lemma installAll_generation (id : String) (entries : List (String × String)) :
    (A.installAll id entries).generation = A.generation := by
  induction entries generalizing A with
  | nil => rfl
  | cons e rest ih => exact (ih (A := A.installToken id e.1 e.2)).trans (installToken_generation _ _ _)

/-- A token that is in the table keeps its record; the others get the one of their first key. -/
lemma installAll_get (id t : String) (entries : List (String × String)) :
    (A.installAll id entries).tokens.get? t =
      if A.tokens.has t then A.tokens.get? t
      else (entries.find? (fun e => e.2 = t)).map (fun e => A.recordFor id e.1 t) := by
  induction entries generalizing A with
  | nil =>
    split_ifs with h
    · rfl
    · simpa [installAll] using (OrderedMap.has_eq_false A.tokens t).mp (by simpa using h)
  | cons e rest ih =>
    have hstep := installToken_get (A := A) id e.1 e.2 t
    have hrecord : ∀ key, (A.installToken id e.1 e.2).recordFor id key t = A.recordFor id key t := by
      intro key
      rw [recordFor, recordFor, installToken_generation]
    have hcons : A.installAll id (e :: rest) = (A.installToken id e.1 e.2).installAll id rest := rfl
    rw [hcons, ih, OrderedMap.has, hstep]
    simp only [hrecord]
    cases hold : A.tokens.get? t with
    | some rec => simp [OrderedMap.has, hold]
    | none =>
      by_cases ht : e.2 = t
      · simp [OrderedMap.has, hold, ht]
      · have ht' : ¬ t = e.2 := fun h => ht h.symm
        simp [OrderedMap.has, hold, ht, ht']

lemma installTokens_keeps {rec : TokenRecord} (h : A.tokens.get? t = some rec) (id : String)
    (tokens : OrderedMap String String) : (A.installTokens id tokens).tokens.get? t = some rec := by
  rw [installTokens, installAll_get, if_pos (OrderedMap.has_of_get? h), h]

/-! ### Revocation -/

/-- The token is on record as issued to `owner`, and its record is revoked or of a generation that
is. -/
def Revoked (A : Authority) (t owner : String) : Prop :=
  ∃ rec, A.tokens.get? t = some rec ∧ rec.pluginId = owner ∧
    (rec.revoked = true ∨ rec.gen < A.generation)

lemma revokeWhere_get (f : TokenRecord → Bool) (t : String) :
    (A.revokeWhere f).tokens.get? t =
      (A.tokens.get? t).map (fun rec => if f rec then { rec with revoked := true } else rec) :=
  OrderedMap.get?_mapValues _ _ _

lemma revoke_get (pluginId : JsValue) (t : String) :
    (A.revoke pluginId).tokens.get? t =
      (A.tokens.get? t).map
        (fun rec => if covered pluginId rec then { rec with revoked := true } else rec) := by
  unfold revoke
  split_ifs
  · exact revokeWhere_get _ _
  · exact revokeWhere_get _ _

lemma revoke_generation (pluginId : JsValue) :
    (A.revoke pluginId).generation = if pluginId.truthy then A.generation else A.generation + 1 := by
  unfold revoke
  split_ifs <;> rfl

lemma Revoked.installTokens (h : A.Revoked t p) (id : String) (tokens : OrderedMap String String) :
    (A.installTokens id tokens).Revoked t p := by
  obtain ⟨rec, hget, howner, hrevoked⟩ := h
  refine ⟨rec, installTokens_keeps hget id tokens, howner, ?_⟩
  rw [Authority.installTokens, installAll_generation]
  exact hrevoked

lemma Revoked.revoke (h : A.Revoked t p) (pluginId : JsValue) : (A.revoke pluginId).Revoked t p := by
  obtain ⟨rec, hget, howner, hrevoked⟩ := h
  refine ⟨_, by rw [revoke_get, hget, Option.map_some], ?_, ?_⟩
  · split_ifs <;> exact howner
  · have hgen : A.generation ≤ (A.revoke pluginId).generation := by
      rw [revoke_generation]
      split_ifs <;> omega
    rcases hrevoked with hr | hg
    · left
      split_ifs
      · rfl
      · exact hr
    · right
      split_ifs <;> exact hg.trans_le hgen

lemma revoked_of_covered {rec : TokenRecord} {pluginId : JsValue} (h : A.tokens.get? t = some rec)
    (hc : covered pluginId rec = true) : (A.revoke pluginId).Revoked t rec.pluginId :=
  ⟨{ rec with revoked := true }, by rw [revoke_get, h, Option.map_some, if_pos hc], rfl, .inl rfl⟩

lemma checkToken_revoked (h : A.Revoked t p) (op : String) :
    ∃ detail, A.checkToken p t op = some (.fail .revoked detail) := by
  obtain ⟨rec, hget, howner, hrevoked⟩ := h
  unfold checkToken
  rw [hget]
  dsimp only
  rw [if_neg (not_not.mpr howner)]
  split_ifs with hr hg
  · exact ⟨_, rfl⟩
  · exact ⟨_, rfl⟩
  · exact absurd hrevoked (not_or.mpr ⟨hr, hg⟩)
  · exact absurd hrevoked (not_or.mpr ⟨hr, hg⟩)
  · exact absurd hrevoked (not_or.mpr ⟨hr, hg⟩)
  · exact absurd hrevoked (not_or.mpr ⟨hr, hg⟩)

lemma checkToken_foreign (h : A.Revoked t p) {q : String} (hq : q ≠ p) (op : String) :
    A.checkToken q t op = some (.fail .refused "token not issued to this compartment") := by
  obtain ⟨rec, hget, howner, _⟩ := h
  unfold checkToken
  rw [hget]
  dsimp only
  rw [if_pos (howner.trans_ne hq.symm)]

lemma checkToken_congr (hget : A'.tokens.get? t = A.tokens.get? t)
    (hgen : A'.generation = A.generation) (q op : String) :
    A'.checkToken q t op = A.checkToken q t op := by
  unfold checkToken
  rw [hget, hgen]

/-- A scoped revocation does not reach the tokens of other plugins, nor unknown ones. -/
lemma checkToken_scoped {plugin : String} (hplugin : plugin ≠ "")
    (ht : ∀ rec, A.tokens.get? t = some rec → rec.pluginId ≠ plugin) (q op : String) :
    (A.revoke (.str plugin)).checkToken q t op = A.checkToken q t op := by
  have htruthy : (JsValue.str plugin).truthy = true := by simp [JsValue.truthy, hplugin]
  apply checkToken_congr
  · rw [revoke_get]
    cases hget : A.tokens.get? t with
    | none => rfl
    | some rec =>
      have hother : ¬ plugin = rec.pluginId := fun h => ht rec hget h.symm
      have hcov : covered (.str plugin) rec = false := by
        simp [covered, htruthy, JsValue.string?, hother]
      rw [Option.map_some, hcov]
      rfl
  · rw [revoke_generation, if_pos htruthy]

end Authority

namespace PortRouter

variable {manifests : OrderedMap String PluginManifest} {R R' S S' : PortRouter} {e : Event}
  {t owner : String}

lemma revoked_turn (h : S.authority.Revoked t owner) (ht : Turn manifests R e S S') :
    S'.authority.Revoked t owner := by
  rcases ht.registry with ⟨_, _, hsame | ⟨pluginId, hrevoke⟩⟩ | ⟨entry, m, tokens, henrol⟩
  · rw [hsame]
    exact h
  · rw [hrevoke]
    exact h.revoke pluginId
  · rw [henrol.authority]
    exact h.installTokens entry.id tokens

lemma revoked_later {ok : PortRouter → Event → Prop} (hW : R.Wired)
    (h : R.authority.Revoked t owner) (hl : (system manifests).Later ok R R') :
    R'.authority.Revoked t owner := by
  have hboth : R'.Wired ∧ R'.authority.Revoked t owner := by
    apply hl.invariant (P := fun S => S.Wired ∧ S.authority.Revoked t owner) ⟨hW, h⟩
    intro S e S' hS _ hs
    exact ⟨hS.1.step hs, (hS.1.turns hs).invariant (fun _ _ ht hT => revoked_turn hT ht) hS.2⟩
  exact hboth.2

/-- The event is a `host.tokens.revoke@1`, by the root or by a compartment that may. -/
inductive Revokes (R : PortRouter) (pluginId : JsValue) : Event → Prop
  | root (payload : JsValue) (deadlineMs : ℕ) (onChunk : Bool) :
    payload.prop? "pluginId" = some pluginId →
    Revokes R pluginId (.callAsRoot HostOps.tokensRevoke payload deadlineMs onChunk)
  | compartment (id : String) (m : CallMsg) : m.op = HostOps.tokensRevoke →
    R.authority.checkToken id m.capabilityToken m.op = none →
    m.payload.prop? "pluginId" = some pluginId → Revokes R pluginId (.message id (.call m))

lemma reply_authority (caller : Caller) (out : Outcome) :
    (R.reply caller out).authority = R.authority := by
  rcases reply_shape R caller out with ⟨L, heq⟩ | ⟨id, callId, r, heq⟩
  · rw [heq]
  · rw [heq]
    rfl

lemma revoke_authority {callerId : String} {payload pluginId : JsValue}
    (hp : payload.prop? "pluginId" = some pluginId) :
    (R.revoke callerId payload).1.authority = R.authority.revoke pluginId := by
  unfold PortRouter.revoke
  rw [hp]
  dsimp only
  obtain ⟨J, hJ⟩ := journal_shape { R with authority := R.authority.revoke pluginId }
    [("principal", .str callerId), ("op", .str "host.tokens.revoke"), ("decision", .str "allow"),
      ("reason", .str (revokeReason pluginId (R.authority.affected pluginId)
        (R.authority.revoke pluginId).generation)),
      ("affected", .num (R.authority.affected pluginId)), ("scope", revokeScope pluginId)]
  rw [hJ]

lemma Revokes.authority {pluginId : JsValue} (h : Revokes R pluginId e)
    (hs : PortRouter.step manifests R e = some R') :
    R'.authority = R.authority.revoke pluginId := by
  cases h with
  | root payload deadlineMs onChunk hp =>
    cases hs
    have hcall : R.callAsRoot HostOps.tokensRevoke payload deadlineMs onChunk =
        (R.revoke "root" payload).1.reply .root (R.revoke "root" payload).2 := rfl
    rw [hcall, reply_authority, revoke_authority hp]
  | compartment id m hop htoken hp =>
    simp only [PortRouter.step] at hs
    split_ifs at hs
    cases hs
    let S := (R.receive id (.call m)).setState id (fun h => { h with calls := h.calls + 1 })
    have hS : S.authority = R.authority := by
      obtain ⟨K, heq, _⟩ := setState_shape (R.receive id (.call m)) id
        (fun h => { h with calls := h.calls + 1 })
      simp only [S, heq]
      rfl
    have hmsg : (R.receive id (.call m)).onWorkerMessage id (.call m) = S.compartmentCall id m := rfl
    have hcall : S.compartmentCall id m =
        (S.revoke id m.payload).1.reply (.compartment id m.callId) (S.revoke id m.payload).2 := by
      unfold compartmentCall
      rw [hS, htoken, hop]
      rfl
    rw [hmsg, hcall, reply_authority, revoke_authority hp, hS]

/-- No call that presents the token gets past the token check. -/
structure Barred (R : PortRouter) (t owner : String) : Prop where
  revoked : ∀ op, ∃ detail, R.authority.checkToken owner t op = some (.fail .revoked detail)
  refused : ∀ p op, p ≠ owner →
    R.authority.checkToken p t op = some (.fail .refused "token not issued to this compartment")
  answered : ∀ p m, m.capabilityToken = t → ∃ r,
    R.authority.checkToken p t m.op = some r ∧
      R.compartmentCall p m = R.reply (.compartment p m.callId) (.result r)

lemma barred_of_revoked (h : R.authority.Revoked t owner) : R.Barred t owner := by
  refine ⟨Authority.checkToken_revoked h, fun p op hp => Authority.checkToken_foreign h hp op, ?_⟩
  rintro p m rfl
  have hrefused : ∃ r, R.authority.checkToken p m.capabilityToken m.op = some r := by
    by_cases hp : p = owner
    · obtain ⟨detail, hdetail⟩ := Authority.checkToken_revoked h m.op
      exact ⟨_, hp ▸ hdetail⟩
    · exact ⟨_, Authority.checkToken_foreign h hp m.op⟩
  obtain ⟨r, hr⟩ := hrefused
  refine ⟨r, hr, ?_⟩
  rw [compartmentCall, hr]

theorem revocation_permanent (manifests : OrderedMap String PluginManifest) (R R' : PortRouter)
    (e : Event) (pluginId : JsValue) (h : (system manifests).Reachable System.free R)
    (he : R.Revokes pluginId e) (hs : PortRouter.step manifests R e = some R') :
    (∀ t rec, R.authority.tokens.get? t = some rec →
        Authority.covered pluginId rec = true ∨ R.authority.Revoked t rec.pluginId →
        ∀ R'', (system manifests).Later System.free R' R'' → R''.Barred t rec.pluginId) ∧
      ∀ plugin, pluginId = .str plugin → plugin ≠ "" →
        ∀ t, (∀ rec, R.authority.tokens.get? t = some rec → rec.pluginId ≠ plugin) →
          ∀ p op, R'.authority.checkToken p t op = R.authority.checkToken p t op := by
  have hauthority := he.authority hs
  have hW : R'.Wired := (Wired.reachable h).step hs
  constructor
  · intro t rec hget hcov R'' hlater
    have hrevoked : R'.authority.Revoked t rec.pluginId := by
      rw [hauthority]
      rcases hcov with hcov | hold
      · exact Authority.revoked_of_covered hget hcov
      · exact hold.revoke pluginId
    exact barred_of_revoked (revoked_later hW hrevoked hlater)
  · rintro plugin rfl hplugin t ht p op
    rw [hauthority]
    exact Authority.checkToken_scoped hplugin ht p op

/-- The tokens of `notes`, revoked while it is dormant; its first touch registers them again. -/
theorem revocation_permanent_respawned :
    ∃ R : PortRouter, R.compartments.has "notes" = true ∧ R.Barred "t_0" "notes" := by
  let M := system (Sample.manifests none none)
  let dormant : List Event :=
    [.registerDormant Sample.notes (.ofEntries [("port:notes.get@1", "t_0")])]
  let revoke : Event := .callAsRoot HostOps.tokensRevoke (.obj [("pluginId", .str "notes")]) 0 false
  let respawn : List Event := [Sample.get, .checkedOut "notes"]
  have hbefore : (M.exec System.free Sample.start dormant).map (fun R =>
      decide ((R.authority.tokens.get? "t_0").map TokenRecord.pluginId = some "notes")) =
        some true := by decide
  have hafter : (M.exec System.free Sample.start (dormant ++ revoke :: respawn)).map
      (fun R => R.compartments.has "notes") = some true := by decide
  obtain ⟨R, R', R'', hR, htoken, _, hstep, _, hlater, hhas⟩ :=
    System.exec_split (Sample.start_init _) hbefore hafter
  obtain ⟨rec, hrec, howner⟩ := Option.map_eq_some_iff.mp (of_decide_eq_true htoken)
  have hrevokes : R.Revokes (.str "notes") revoke := .root _ 0 false rfl
  have hcov : Authority.covered (.str "notes") rec = true := by
    simp [Authority.covered, JsValue.truthy, JsValue.string?, howner]
  have hbarred := (revocation_permanent _ R R' revoke _ hR hrevokes hstep).1 "t_0" rec hrec
    (.inl hcov) R'' hlater
  exact ⟨R'', hhas, howner ▸ hbarred⟩

end PortRouter

end VivimOmega.Host

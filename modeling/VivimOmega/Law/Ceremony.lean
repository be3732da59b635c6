import VivimOmega.Law.Gate

/-! The consent ceremony: who may manage a consent, and what an aborted grant leaves behind. -/

namespace VivimOmega.Law

open Library Library.Json

section Requests

def asObj : Value → Value
  | .object members => .object members
  | .array items => .array items
  | _ => .object []

def str : Value → JsString
  | .string s => s
  | _ => []

def optStr : Value → Option JsString
  | .string [] => none
  | .string s => some s
  | _ => none

structure ConsentRequest where
  consentId : JsString
  revoking : Bool
  principal : Option JsString
  scope : Option JsString

def consentRequest (payload : Value) : ConsentRequest :=
  let p := asObj payload
  let action := optionalProperty p "action"
  ⟨str (optionalProperty p "consentId"), isText action "revoke" || isText action "deny-revoke",
    optStr (optionalProperty p "principal"), optStr (optionalProperty p "scope")⟩

def rootPrincipal : JsString := ofText "root"

/-- The caller and the principal that the payload names, if it names one. -/
def mayManage (caller : JsString) (named : Option JsString) : Except String Unit :=
  match named with
  | none => return ()
  | some principal =>
    require (caller = rootPrincipal || principal = caller)
      ("law.consent.grant: caller '" ++ toText caller ++ "' may not manage consents for principal '" ++
        toText principal ++ "' (cross-principal refusal, D-384)")

end Requests

section Calls

/-- A grant whose principal record is being ensured. -/
structure ConsentFlight where
  caller : JsString
  consentId : JsString

/-- What `law.check@1` decides by, and the grants under way. -/
structure Ceremonies where
  consents : ConsentTable
  forbidden : ForbiddenTable
  persistence : Bool
  flights : ℕ → Option ConsentFlight

inductive CeremonyEvent
  | consent (call : ℕ) (caller : JsString) (payload : Value)
  | ensured (call : ℕ) (failure : Option String)
  | overlay (forbidden : ForbiddenTable)

namespace Ceremonies

variable (s : Ceremonies)

def revoke (consentId : JsString) : Ceremonies := { s with consents := (s.consents.revoke consentId).2 }

def fly (call : ℕ) (flight : Option ConsentFlight) : Ceremonies :=
  { s with flights := Function.update s.flights call flight }

/-- `law.consent.grant@1` up to its first port call, with the table as it is when that call is made. -/
def manage (call : ℕ) (caller : JsString) (r : ConsentRequest) : Except String Ceremonies := do
  mayManage caller r.principal
  if r.revoking then return s.revoke r.consentId
  else
    let consents ← s.consents.grant r.consentId r.principal r.scope
    if r.principal.isSome && s.persistence then
      return { s with consents := consents }.fly call (some ⟨caller, r.consentId⟩)
    else return { s with consents := consents }

/-- The principal record is there, or the grant is taken back. -/
def ensured (call : ℕ) (flight : ConsentFlight) : Option String → Ceremonies
  | none => s.fly call none
  | some _ => (s.revoke flight.consentId).fly call none

def step : CeremonyEvent → Option Ceremonies
  | .consent call caller payload =>
    if s.flights call = none then some ((s.manage call caller (consentRequest payload)).toOption.getD s)
    else none
  | .ensured call failure => (s.flights call).map fun flight => s.ensured call flight failure
  | .overlay forbidden => some { s with forbidden := forbidden }

def decision (principal op : JsString) : Except String Value :=
  gateDecision s.consents s.forbidden principal op

/-- Who makes the call that an event is a part of. -/
def actor : CeremonyEvent → Option JsString
  | .consent _ caller _ => some caller
  | .ensured call _ => (s.flights call).map ConsentFlight.caller
  | .overlay _ => none

/-- The event takes the place of the record of an id. -/
def Replaces (id : JsString) : CeremonyEvent → Prop
  | .consent _ caller payload => (consentRequest payload).consentId = id ∧
      mayManage caller (consentRequest payload).principal = .ok ()
  | .ensured call failure => failure ≠ none ∧ ∃ flight, s.flights call = some flight ∧ flight.consentId = id
  | .overlay _ => False

end Ceremonies

/-- The record that an event leaves answers to a principal and an operation. -/
def CeremonyEvent.Answers (principal op : JsString) : CeremonyEvent → Prop
  | .consent _ _ payload => (consentRequest payload).revoking = false ∧
      (consentRequest payload).principal.all (· = principal) ∧ (consentRequest payload).scope.all (· = op)
  | _ => False

def ceremonies : System Ceremonies CeremonyEvent where
  init s := s.consents = .empty ∧ s.flights = fun _ => none
  step := Ceremonies.step

end Calls

section Effects

variable {s t u : Ceremonies} {e : CeremonyEvent} {call : ℕ} {caller : JsString} {payload : Value}

namespace Ceremonies

lemma manage_spec {r : ConsentRequest} (h : s.manage call caller r = .ok t) (p op : JsString) :
    t.forbidden = s.forbidden ∧ mayManage caller r.principal = .ok () ∧
    (r.consentId = consentIdFor p op → ((t.consents.hasMatchingGrant p op).isSome ↔
      r.revoking = false ∧ r.principal.all (· = p) ∧ r.scope.all (· = op))) ∧
    (r.consentId ≠ consentIdFor p op → ((t.consents.hasMatchingGrant p op).isSome ↔
      (s.consents.hasMatchingGrant p op).isSome)) := by
  obtain ⟨_, hmay, h⟩ := bind_eq_ok h
  cases hrevoking : r.revoking with
  | true =>
    rw [hrevoking, if_pos rfl] at h
    cases h
    have hspec := ConsentTable.hasMatchingGrant_revoke s.consents r.consentId p op
    refine ⟨rfl, hmay, fun hid => ?_, fun hid => ?_⟩
    · exact hspec.trans ⟨fun h => absurd hid.symm h.1, fun h => nomatch h.1⟩
    · exact hspec.trans ⟨And.right, fun h => ⟨hid.symm, h⟩⟩
  | false =>
    rw [hrevoking, if_neg Bool.false_ne_true] at h
    obtain ⟨consents, hgrant, h⟩ := bind_eq_ok h
    have hspec := ConsentTable.hasMatchingGrant_grant hgrant p op
    have htable : t.consents = consents ∧ t.forbidden = s.forbidden := by
      split_ifs at h <;> cases h <;> exact ⟨rfl, rfl⟩
    rw [htable.1]
    refine ⟨htable.2, hmay, fun hid => ?_, fun hid => ?_⟩
    · rw [if_pos hid.symm] at hspec
      exact hspec.trans ⟨fun h => ⟨rfl, h⟩, And.right⟩
    · rw [if_neg (Ne.symm hid)] at hspec
      exact hspec

/-- A request that may be made and names the id of a pair is carried out. -/
lemma manage_ok {r : ConsentRequest} {p op : JsString} (hmay : mayManage caller r.principal = .ok ())
    (hid : r.consentId = consentIdFor p op) : ∃ t, s.manage call caller r = .ok t := by
  rw [manage, hmay, ok_bind]
  cases r.revoking with
  | true => exact ⟨_, rfl⟩
  | false =>
    have hvalid : isConsentId r.consentId = true := by
      rw [hid]
      exact isConsentId_consentIdFor p op
    obtain ⟨consents, hgrant⟩ := ConsentTable.grant_ok (t := s.consents) hvalid
    rw [if_neg Bool.false_ne_true, hgrant, ok_bind]
    split_ifs <;> exact ⟨_, rfl⟩

/-- What an event does to the answer that a pair gets. -/
lemma step_spec (hstep : s.step e = some t) (p op : JsString) :
    (s.Replaces (consentIdFor p op) e → ((t.consents.hasMatchingGrant p op).isSome ↔ e.Answers p op)) ∧
    (¬ s.Replaces (consentIdFor p op) e → ((t.consents.hasMatchingGrant p op).isSome ↔
      (s.consents.hasMatchingGrant p op).isSome)) := by
  cases e with
  | consent call caller payload =>
    dsimp only [step] at hstep
    split_ifs at hstep
    cases hmanage : s.manage call caller (consentRequest payload) with
    | error err =>
      rw [hmanage] at hstep
      cases hstep
      refine ⟨fun ⟨hid, hmay⟩ => ?_, fun _ => Iff.rfl⟩
      have hok : ∃ t, s.manage call caller (consentRequest payload) = .ok t := manage_ok hmay hid
      obtain ⟨t, ht⟩ := hok
      cases ht.symm.trans hmanage
    | ok t' =>
      rw [hmanage] at hstep
      cases hstep
      obtain ⟨_, hmay, hsame, hother⟩ := manage_spec hmanage p op
      exact ⟨fun h => hsame h.1, fun h => hother fun hid => h ⟨hid, hmay⟩⟩
  | ensured call failure =>
    obtain ⟨flight, hflight, rfl⟩ := Option.map_eq_some_iff.mp hstep
    cases failure with
    | none => exact ⟨fun h => absurd rfl h.1, fun _ => Iff.rfl⟩
    | some err =>
      have hspec := ConsentTable.hasMatchingGrant_revoke s.consents flight.consentId p op
      refine ⟨fun ⟨_, found, hfound, hid⟩ => ?_, fun h => ?_⟩
      · obtain rfl : flight = found := Option.some.inj (hflight.symm.trans hfound)
        exact hspec.trans ⟨fun h => absurd hid.symm h.1, fun h => h.elim⟩
      · refine hspec.trans ⟨And.right, fun hold => ⟨fun hid => ?_, hold⟩⟩
        exact h ⟨nofun, flight, hflight, hid.symm⟩
  | overlay forbidden =>
    cases hstep
    exact ⟨fun h => h.elim, fun _ => Iff.rfl⟩

lemma step_forbidden (hstep : s.step e = some t) (hactor : s.actor e = some caller) :
    t.forbidden = s.forbidden := by
  cases e with
  | consent call caller payload =>
    dsimp only [step] at hstep
    split_ifs at hstep
    cases hmanage : s.manage call caller (consentRequest payload) with
    | error err =>
      rw [hmanage] at hstep
      cases hstep
      rfl
    | ok t' =>
      rw [hmanage] at hstep
      cases hstep
      exact (manage_spec hmanage [] []).1
  | ensured call failure =>
    obtain ⟨flight, _, rfl⟩ := Option.map_eq_some_iff.mp hstep
    cases failure <;> rfl
  | overlay forbidden => cases hactor

lemma decision_unchanged_iff (hforbidden : t.forbidden = s.forbidden) (p op : JsString) :
    s.decision p op = t.decision p op ↔ (AsksConsent s.forbidden p op →
      ((s.consents.hasMatchingGrant p op).isSome ↔ (t.consents.hasMatchingGrant p op).isSome)) := by
  rw [decision, decision, hforbidden]
  exact gateDecision_eq_iff s.consents t.consents s.forbidden p op

end Ceremonies

/-- A caller other than root leaves every decision about another principal as it is. -/
def Confined (s : Ceremonies) (e : CeremonyEvent) (t : Ceremonies) : Prop :=
  ∀ caller, s.actor e = some caller → caller ≠ rootPrincipal →
    ∀ p op, p ≠ caller → s.decision p op = t.decision p op

/-- Where a caller other than root uses the consent id of another principal's pair, for which the policy asks
a consent, the record it leaves answers that pair as the one before. -/
def OwnIds (s : Ceremonies) (e : CeremonyEvent) : Prop :=
  ∀ caller, s.actor e = some caller → caller ≠ rootPrincipal →
    ∀ p op, p ≠ caller → AsksConsent s.forbidden p op → s.Replaces (consentIdFor p op) e →
      ((s.consents.hasMatchingGrant p op).isSome ↔ e.Answers p op)

lemma confined_iff (hstep : ceremonies.step s e = some t) : Confined s e t ↔ OwnIds s e := by
  refine forall_congr' fun caller => forall_congr' fun hactor => forall_congr' fun _ => forall_congr' fun p =>
    forall_congr' fun op => forall_congr' fun _ => ?_
  obtain ⟨hreplaced, hkept⟩ := Ceremonies.step_spec hstep p op
  rw [Ceremonies.decision_unchanged_iff (Ceremonies.step_forbidden hstep hactor)]
  refine forall_congr' fun _ => ?_
  by_cases hreplaces : s.Replaces (consentIdFor p op) e
  · rw [hreplaced hreplaces]
    exact ⟨fun h _ => h, fun h => h hreplaces⟩
  · rw [hkept hreplaces]
    exact ⟨fun _ h => absurd h hreplaces, fun _ => Iff.rfl⟩

/-- In a run, consents are bound to their principals just as far as callers keep to ids of their own. -/
theorem consents_bound_iff {steps : List (Ceremonies × CeremonyEvent × Ceremonies)}
    (h : ceremonies.Run steps s) :
    (∀ x ∈ steps, Confined x.1 x.2.1 x.2.2) ↔ ∀ x ∈ steps, OwnIds x.1 x.2.1 := by
  have hall : ∀ x ∈ steps, Confined x.1 x.2.1 x.2.2 ↔ OwnIds x.1 x.2.1 :=
    (h.forall (P := fun x => Confined x.1 x.2.1 x.2.2 ↔ OwnIds x.1 x.2.1)
      fun _ _ _ _ hstep => confined_iff hstep).2
  exact forall₂_congr hall

def noCeremonies : Ceremonies := ⟨.empty, .empty, true, fun _ => none⟩

lemma noCeremonies_init : ceremonies.init noCeremonies := ⟨rfl, rfl⟩

def userAlice : JsString := ofText "user:alice"

def riskyOp : JsString := ofText "risky.op@1"

def consentPayload (fields : List (String × JsString)) : Value :=
  .object (fields.map fun f => (ofText f.1, .string f.2))

/-- A consent for the call that another principal makes. -/
def foreignConsent : CeremonyEvent :=
  .consent 0 (ofText "user:mallory") (consentPayload [("consentId", consentIdFor userAlice riskyOp)])

lemma asksConsent_risky : AsksConsent .empty userAlice riskyOp := by
  refine ⟨rfl, ?_⟩
  have hask : (evalPolicy LAW_POLICY_V1 userAlice riskyOp).toOption.map
      (fun action => isText (optionalProperty action "decision") "require-consent") = some true := by
    decide
  exact ok_of_toOption hask

lemma foreignConsent_step : ∃ t, ceremonies.step noCeremonies foreignConsent = some t := ⟨_, rfl⟩

lemma foreignConsent_replaces : noCeremonies.Replaces (consentIdFor userAlice riskyOp) foreignConsent := ⟨rfl, rfl⟩

lemma not_ownIds_foreignConsent : ¬ OwnIds noCeremonies foreignConsent := by
  intro h
  have hsame := h (ofText "user:mallory") rfl (by decide) userAlice riskyOp (by decide) asksConsent_risky
    foreignConsent_replaces
  have hanswers : foreignConsent.Answers userAlice riskyOp := ⟨rfl, rfl, rfl⟩
  cases hsame.mpr hanswers

/-- The run of a single call for the consent of another. -/
theorem consents_bound_iff_foreign : ∃ t, ceremonies.Run [(noCeremonies, foreignConsent, t)] t ∧
    ¬ ∀ x ∈ [(noCeremonies, foreignConsent, t)], Confined x.1 x.2.1 x.2.2 := by
  obtain ⟨t, hstep⟩ := foreignConsent_step
  have hrun := (System.Run.start noCeremonies_init).next hstep
  refine ⟨t, hrun, fun hconfined => ?_⟩
  exact not_ownIds_foreignConsent ((consents_bound_iff hrun).mp hconfined _ (List.mem_singleton_self _))

/-- Without naming the principal, anyone grants its consent. -/
theorem consent_forged : ¬ ∀ steps s, ceremonies.Run steps s →
    ∀ x ∈ steps, Confined x.1 x.2.1 x.2.2 := by
  intro h
  obtain ⟨t, hstep⟩ := foreignConsent_step
  have hconfined := h _ _ ((System.Run.start noCeremonies_init).next hstep) _ (List.mem_singleton_self _)
  exact not_ownIds_foreignConsent ((confined_iff hstep).mp hconfined)

end Effects

section Aborts

variable {s t u : Ceremonies} {call : ℕ} {caller : JsString} {payload : Value} {err : String}

lemma manage_flight {r : ConsentRequest} {flight : ConsentFlight} (h : s.manage call caller r = .ok t)
    (hfree : s.flights call = none) (hflight : t.flights call = some flight) : flight.consentId = r.consentId := by
  obtain ⟨_, _, h⟩ := bind_eq_ok h
  split_ifs at h
  · cases h
    cases hfree.symm.trans hflight
  · obtain ⟨consents, _, h⟩ := bind_eq_ok h
    cases h
    have hself := Function.update_self call (some ⟨caller, r.consentId⟩) s.flights
    cases hself.symm.trans hflight
    rfl
  · obtain ⟨consents, _, h⟩ := bind_eq_ok h
    cases h
    cases hfree.symm.trans hflight

/-- After an aborted grant its id has no record that is active; the other ids are as they were. -/
lemma abort_spec (hgrant : s.step (.consent call caller payload) = some t)
    (habort : t.step (.ensured call (some err)) = some u) (p op : JsString) :
    (u.consents.hasMatchingGrant p op).isSome ↔ consentIdFor p op ≠ (consentRequest payload).consentId ∧
      (s.consents.hasMatchingGrant p op).isSome := by
  obtain ⟨flight, hflight, rfl⟩ := Option.map_eq_some_iff.mp habort
  have hrevoked := ConsentTable.hasMatchingGrant_revoke t.consents flight.consentId p op
  dsimp only [Ceremonies.step] at hgrant
  split_ifs at hgrant with hfree
  cases hmanage : s.manage call caller (consentRequest payload) with
  | error failure =>
    rw [hmanage] at hgrant
    cases hgrant
    cases hfree.symm.trans hflight
  | ok t' =>
    rw [hmanage] at hgrant
    cases hgrant
    obtain ⟨_, _, _, hother⟩ := Ceremonies.manage_spec hmanage p op
    refine Iff.trans hrevoked ?_
    rw [manage_flight hmanage hfree hflight]
    exact and_congr_right fun hid => hother (Ne.symm hid)

lemma abort_forbidden (hgrant : s.step (.consent call caller payload) = some t)
    (habort : t.step (.ensured call (some err)) = some u) : u.forbidden = s.forbidden := by
  obtain ⟨flight, hflight, _⟩ := Option.map_eq_some_iff.mp habort
  have hactor : t.actor (.ensured call (some err)) = some flight.caller := by
    rw [Ceremonies.actor, hflight]
    rfl
  exact (Ceremonies.step_forbidden habort hactor).trans (Ceremonies.step_forbidden hgrant rfl)

/-- A grant that is taken back, because the record of its principal could not be ensured, changes nothing just
where no pair with its id had been allowed by a consent before. -/
theorem aborted_grant_iff (hgrant : s.step (.consent call caller payload) = some t)
    (habort : t.step (.ensured call (some err)) = some u) :
    (∀ p op, s.decision p op = u.decision p op) ↔
      ∀ p op, consentIdFor p op = (consentRequest payload).consentId → AsksConsent s.forbidden p op →
        s.consents.hasMatchingGrant p op = none := by
  have hforbidden := abort_forbidden hgrant habort
  refine forall_congr' fun p => forall_congr' fun op => ?_
  rw [Ceremonies.decision_unchanged_iff hforbidden, abort_spec hgrant habort p op, ← Option.not_isSome_iff_eq_none]
  tauto

def alicePayload : Value :=
  consentPayload [("consentId", consentIdFor userAlice riskyOp), ("principal", userAlice)]

/-- The root grants a consent to the principal that it is for. -/
def rootGrant : CeremonyEvent := .consent 0 rootPrincipal alicePayload

lemma consentRequest_alice :
    consentRequest alicePayload = ⟨consentIdFor userAlice riskyOp, false, some userAlice, none⟩ := rfl

def aliceConsent (gen : ℕ) : ConsentRecord := ⟨consentIdFor userAlice riskyOp, some userAlice, none, gen, true⟩

lemma grant_alice (consents : ConsentTable) :
    consents.grant (consentIdFor userAlice riskyOp) (some userAlice) none =
      .ok ⟨consents.grants.set (consentIdFor userAlice riskyOp) (aliceConsent (consents.gen + 1)),
        consents.gen + 1⟩ := by
  rw [ConsentTable.grant, if_pos (isConsentId_consentIdFor userAlice riskyOp)]
  rfl

/-- The grant that cannot ensure the principal's record, from any table. -/
lemma rootGrant_aborts (consents : ConsentTable) : ∃ t u,
    Ceremonies.step { noCeremonies with consents := consents } rootGrant = some t ∧
      t.step (.ensured 0 (some "DEGRADED")) = some u := by
  have hmay : mayManage rootPrincipal (some userAlice) = .ok () := rfl
  have hmanage : ∃ t, Ceremonies.manage { noCeremonies with consents := consents } 0 rootPrincipal
      (consentRequest alicePayload) = .ok t ∧
        t.flights 0 = some ⟨rootPrincipal, consentIdFor userAlice riskyOp⟩ := by
    rw [consentRequest_alice, Ceremonies.manage, hmay, ok_bind, if_neg Bool.false_ne_true, grant_alice, ok_bind]
    exact ⟨_, rfl, rfl⟩
  obtain ⟨t, ht, hflight⟩ := hmanage
  refine ⟨t, t.ensured 0 ⟨rootPrincipal, consentIdFor userAlice riskyOp⟩ (some "DEGRADED"), ?_, ?_⟩
  · change some ((Ceremonies.manage _ 0 rootPrincipal (consentRequest alicePayload)).toOption.getD _) = _
    rw [ht]
    rfl
  · rw [Ceremonies.step, hflight]
    rfl

theorem aborted_grant_iff_fresh : ∃ t u, noCeremonies.step rootGrant = some t ∧
    t.step (.ensured 0 (some "DEGRADED")) = some u ∧ ∀ p op, noCeremonies.decision p op = u.decision p op := by
  obtain ⟨t, u, hgrant, habort⟩ := rootGrant_aborts .empty
  exact ⟨t, u, hgrant, habort, (aborted_grant_iff hgrant habort).mpr fun _ _ _ _ => rfl⟩

def grantedTable : ConsentTable := ⟨OrderedMap.empty.set (consentIdFor userAlice riskyOp) (aliceConsent 1), 1⟩

lemma grantedTable_alice : (grantedTable.hasMatchingGrant userAlice riskyOp).isSome :=
  (ConsentTable.hasMatchingGrant_grant (grant_alice .empty) userAlice riskyOp).mpr (by simp)

/-- A consent that is granted again is lost when that grant is taken back. -/
theorem aborted_grant_revokes : ¬ ∀ (s t u : Ceremonies) (call : ℕ) (caller : JsString) (payload : Value)
    (err : String), s.step (.consent call caller payload) = some t →
      t.step (.ensured call (some err)) = some u → ∀ p op, s.decision p op = u.decision p op := by
  intro h
  obtain ⟨t, u, hgrant, habort⟩ := rootGrant_aborts grantedTable
  have hsame := h _ t u 0 rootPrincipal alicePayload "DEGRADED" hgrant habort userAlice riskyOp
  have hforbidden := abort_forbidden hgrant habort
  have hkept := (Ceremonies.decision_unchanged_iff hforbidden userAlice riskyOp).mp hsame asksConsent_risky
  exact ((abort_spec hgrant habort userAlice riskyOp).mp (hkept.mp grantedTable_alice)).1 rfl

end Aborts

end VivimOmega.Law

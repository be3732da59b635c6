import VivimOmega.Law.Gate

/-! What a history of grants and revocations lets through the gate. -/

namespace VivimOmega.Law

open Library Library.Json

section History

inductive ConsentEvent
  | grant (consentId : JsString) (principal scope : Option JsString)
  | revoke (consentId : JsString)

namespace ConsentEvent

def id : ConsentEvent → JsString
  | grant consentId _ _ => consentId
  | revoke consentId => consentId

/-- A grant that throws leaves the table as it is. -/
def apply (t : ConsentTable) : ConsentEvent → ConsentTable
  | grant consentId principal scope => (t.grant consentId principal scope).toOption.getD t
  | revoke consentId => (t.revoke consentId).2

/-- A grant whose narrowing fields are those of the call. -/
def Admits (principal op : JsString) : ConsentEvent → Prop
  | grant _ p s => p.all (· = principal) = true ∧ s.all (· = op) = true
  | revoke _ => False

end ConsentEvent

def consentsAfter (events : List ConsentEvent) : ConsentTable := events.foldl ConsentEvent.apply .empty

/-- The last event that names the id of the call admits the call. -/
def LatestAdmits (events : List ConsentEvent) (principal op : JsString) : Prop :=
  ∃ before event after, events = before ++ event :: after ∧ event.id = consentIdFor principal op ∧
    event.Admits principal op ∧ ∀ e ∈ after, e.id ≠ consentIdFor principal op

variable {t : ConsentTable} {events : List ConsentEvent} {principal op : JsString}

lemma latestAdmits_concat (event : ConsentEvent) : LatestAdmits (events ++ [event]) principal op ↔
    if event.id = consentIdFor principal op then event.Admits principal op else LatestAdmits events principal op := by
  constructor
  · rintro ⟨before, found, after, heq, hid, hadmits, hafter⟩
    obtain rfl | ⟨init, last, hafterEq⟩ := List.eq_nil_or_concat after
    · obtain ⟨rfl, hsame⟩ := List.append_inj' heq rfl
      obtain rfl : event = found := by simpa using hsame
      rwa [if_pos hid]
    · rw [List.concat_eq_append] at hafterEq
      rw [hafterEq, ← List.cons_append, ← List.append_assoc] at heq
      rw [hafterEq] at hafter
      obtain ⟨rfl, hsame⟩ := List.append_inj' heq rfl
      obtain rfl : event = last := by simpa using hsame
      rw [if_neg (hafter event (by simp))]
      exact ⟨before, found, init, rfl, hid, hadmits, fun e he => hafter e (List.mem_append_left _ he)⟩
  · split_ifs with hid
    · exact fun hadmits => ⟨events, event, [], rfl, hid, hadmits, nofun⟩
    · rintro ⟨before, found, after, rfl, hfound, hadmits, hafter⟩
      refine ⟨before, found, after ++ [event], by simp, hfound, hadmits, fun e he => ?_⟩
      obtain hold | hlast := List.mem_append.mp he
      · exact hafter e hold
      · rw [List.mem_singleton.mp hlast]
        exact hid

lemma hasMatchingGrant_apply (event : ConsentEvent) (principal op : JsString) :
    ((event.apply t).hasMatchingGrant principal op).isSome ↔
      if event.id = consentIdFor principal op then event.Admits principal op
      else (t.hasMatchingGrant principal op).isSome := by
  cases event with
  | grant consentId p s =>
    change (((t.grant consentId p s).toOption.getD t).hasMatchingGrant principal op).isSome ↔
      if consentId = consentIdFor principal op then _ else _
    by_cases hid : isConsentId consentId = true
    · obtain ⟨t', ht'⟩ := (ConsentTable.grant_ok hid : ∃ t', t.grant consentId p s = .ok t')
      have hgranted := ConsentTable.hasMatchingGrant_grant ht' principal op
      rw [ht']
      simp only [eq_comm (a := consentIdFor principal op)] at hgranted
      exact hgranted
    · have hother : consentId ≠ consentIdFor principal op := by
        rintro rfl
        exact hid (isConsentId_consentIdFor principal op)
      rw [if_neg hother, ConsentTable.grant, if_neg hid]
      rfl
  | revoke consentId =>
    change (((t.revoke consentId).2).hasMatchingGrant principal op).isSome ↔
      if consentId = consentIdFor principal op then False else _
    rw [ConsentTable.hasMatchingGrant_revoke]
    split_ifs with hid
    · simp [hid]
    · simp [Ne.symm hid]

/-- The table keeps of a history what its latest event says of each id. -/
lemma hasMatchingGrant_after (events : List ConsentEvent) (principal op : JsString) :
    ((consentsAfter events).hasMatchingGrant principal op).isSome ↔ LatestAdmits events principal op := by
  induction events using List.reverseRecOn with
  | nil =>
    constructor
    · intro h
      cases h
    · rintro ⟨before, event, after, heq, _⟩
      exact absurd heq.symm (by simp)
  | append_singleton events event ih =>
    rw [latestAdmits_concat, consentsAfter, List.foldl_concat, hasMatchingGrant_apply, ← consentsAfter]
    split_ifs
    · rfl
    · exact ih

end History

section Gate

variable {forbidden : ForbiddenTable} {principal op : JsString}

def Allowed (consents : ConsentTable) (forbidden : ForbiddenTable) (principal op : JsString) : Prop :=
  gateDecision consents forbidden principal op = .ok (jsText "allow")

lemma allowed_iff (consents : ConsentTable) (h : AsksConsent forbidden principal op) :
    Allowed consents forbidden principal op ↔ (consents.hasMatchingGrant principal op).isSome := by
  obtain ⟨hfree, action, haction, hask⟩ := h
  have hne : jsText "require-consent" ≠ jsText "allow" := fun heq => absurd (Value.string.inj heq) (by decide)
  rw [Allowed, gateDecision_eq consents forbidden haction, hfree, if_neg Bool.false_ne_true, if_pos hask]
  cases (consents.hasMatchingGrant principal op).isSome <;> simp [hne]

/-- The live policy sends the pair to require-consent. -/
def SentToConsent (principal op : JsString) : Prop :=
  ∃ action, evalPolicy LAW_POLICY_V1 principal op = .ok action ∧
    isText (optionalProperty action "decision") "require-consent" = true

/-- No history and no overlay lets the grant open the gate to the pair. -/
def Confines (grant : ConsentEvent) (principal op : JsString) : Prop :=
  ∀ events forbidden, Allowed (consentsAfter (events ++ [grant])) forbidden principal op →
    Allowed (consentsAfter events) forbidden principal op

def noForbidden : ForbiddenTable := .empty

lemma confines_iff (consentId : JsString) (p s : Option JsString) (principal op : JsString) :
    Confines (.grant consentId p s) principal op ↔ consentId ≠ consentIdFor principal op ∨
      ¬ (ConsentEvent.grant consentId p s).Admits principal op ∨ ¬ SentToConsent principal op := by
  constructor
  · intro hconfines
    by_contra hnot
    simp only [not_or, not_not, ne_eq] at hnot
    obtain ⟨hid, hadmits, hsent⟩ := hnot
    have hasks : AsksConsent noForbidden principal op := ⟨rfl, hsent⟩
    have hopened : Allowed (consentsAfter ([] ++ [.grant consentId p s])) noForbidden principal op := by
      rw [allowed_iff _ hasks, hasMatchingGrant_after, latestAdmits_concat]
      exact (if_pos hid).mpr hadmits
    have hbefore := hconfines [] noForbidden hopened
    rw [allowed_iff _ hasks] at hbefore
    cases hbefore
  · intro hor events forbidden hopened
    by_cases hasks : AsksConsent forbidden principal op
    · rw [allowed_iff _ hasks, hasMatchingGrant_after] at hopened ⊢
      rw [latestAdmits_concat] at hopened
      split_ifs at hopened with hid
      · obtain hne | hnot | hunsent := hor
        · exact absurd hid hne
        · exact absurd hopened hnot
        · exact absurd hasks.2 hunsent
      · exact hopened
    · have hsame := (gateDecision_eq_iff (consentsAfter events) (consentsAfter (events ++ [.grant consentId p s]))
        forbidden principal op).mpr fun hask => absurd hask hasks
      rw [Allowed, hsame]
      exact hopened

/-- A call that asks for a consent is let through exactly where the latest event of its id is a grant that admits it,
and the grant for one pair is confined to it as far as no other pair shares its id. -/
theorem consent_exact (principal op : JsString) :
    (∀ events forbidden, AsksConsent forbidden principal op →
      (Allowed (consentsAfter events) forbidden principal op ↔ LatestAdmits events principal op)) ∧
    ∀ p s principal' op', (principal, op) ≠ (principal', op') →
      (Confines (.grant (consentIdFor principal op) p s) principal' op' ↔
        consentIdFor principal op ≠ consentIdFor principal' op' ∨ p.any (· ≠ principal') = true ∨
          s.any (· ≠ op') = true ∨ ¬ SentToConsent principal' op') := by
  refine ⟨fun events forbidden h => ?_, fun p s principal' op' _ => ?_⟩
  · rw [allowed_iff _ h, hasMatchingGrant_after]
  · have hadmits : ¬ (ConsentEvent.grant (consentIdFor principal op) p s).Admits principal' op' ↔
        p.any (· ≠ principal') = true ∨ s.any (· ≠ op') = true := by
      have hnot : ∀ (narrow : Option JsString) (named : JsString),
          ¬ narrow.all (· = named) = true ↔ narrow.any (· ≠ named) = true := by
        intro narrow named
        cases narrow <;> simp
      change ¬ (p.all (· = principal') = true ∧ s.all (· = op') = true) ↔ _
      rw [not_and_or, hnot, hnot]
    rw [confines_iff, hadmits, or_assoc]

section Joined

def joinedOp : JsString := ofText "b" ++ 0 :: ofText "c"

def joinedPrincipal : JsString := ofText "a" ++ 0 :: ofText "b"

lemma sent_joined : SentToConsent joinedPrincipal (ofText "c") := by
  have hsent : (evalPolicy LAW_POLICY_V1 joinedPrincipal (ofText "c")).toOption.map
      (fun action => isText (optionalProperty action "decision") "require-consent") = some true := by
    decide
  obtain ⟨action, haction, hask⟩ := Option.map_eq_some_iff.mp hsent
  refine ⟨action, ?_, hask⟩
  cases heval : evalPolicy LAW_POLICY_V1 joinedPrincipal (ofText "c") with
  | error e =>
    rw [heval] at haction
    cases haction
  | ok found =>
    rw [heval] at haction
    rw [Option.some.inj haction]

lemma id_joined : consentIdFor (ofText "a") joinedOp = consentIdFor joinedPrincipal (ofText "c") := by decide

/-- A grant opens the gate to the pair it was issued for, and is not confined to it. -/
theorem consent_exact_joined :
    Allowed (consentsAfter [.grant (consentIdFor joinedPrincipal (ofText "c")) none none]) noForbidden
      joinedPrincipal (ofText "c") ∧
    ¬ Confines (.grant (consentIdFor (ofText "a") joinedOp) none none) joinedPrincipal (ofText "c") := by
  have hallowed := (consent_exact joinedPrincipal (ofText "c")).1
  have hconfines := (consent_exact (ofText "a") joinedOp).2
  refine ⟨(hallowed _ _ ⟨rfl, sent_joined⟩).mpr ⟨[], _, [], rfl, rfl, ⟨rfl, rfl⟩, nofun⟩, ?_⟩
  rw [hconfines none none joinedPrincipal (ofText "c") (by decide)]
  simp [id_joined, sent_joined]

/-- A principal and an op that are joined to one text share their consents. -/
theorem consent_shared : ¬ ∀ principal op p s principal' op', (principal, op) ≠ (principal', op') →
    Confines (.grant (consentIdFor principal op) p s) principal' op' := by
  intro h
  have hconfines := h (ofText "a") joinedOp none none joinedPrincipal (ofText "c") (by decide)
  rw [confines_iff] at hconfines
  obtain hne | hnot | hunsent := hconfines
  · exact hne id_joined
  · exact hnot ⟨rfl, rfl⟩
  · exact hunsent sent_joined

end Joined

end Gate

end VivimOmega.Law

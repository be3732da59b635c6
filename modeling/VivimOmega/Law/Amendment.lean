import VivimOmega.Law.Ceremony
import VivimOmega.Library.Influence

/-! Shadow policies: what is registered, and what `law.check@1` makes of it beside its own decision. -/

namespace VivimOmega.Law

open Library Library.Json

section Reading

def Nullish (v : Value) : Prop := v = .undefined ∨ v = .null

/-- What `rule.match` gives. -/
def matchValue : Value → Value
  | .string _ => .object []
  | rule => optionalProperty rule "match"

/-- The principal of a match lets the caller through. -/
def Names (m : Value) (principal : JsString) : Prop :=
  optionalProperty m "principal" = .undefined ∨ optionalProperty m "principal" = .string principal

def PatternReads (m : Value) : Prop :=
  optionalProperty m "op" = .undefined ∨ ∃ pattern, optionalProperty m "op" = .string pattern

def PatternMatches (m : Value) (op : JsString) : Prop :=
  optionalProperty m "op" = .undefined ∨
    ∃ pattern, optionalProperty m "op" = .string pattern ∧ opMatches pattern op = true

def RowReads (row : Value) (principal : JsString) : Prop :=
  ¬ Nullish (matchValue row) ∧ (Names (matchValue row) principal → PatternReads (matchValue row))

def Applies (row : Value) (principal op : JsString) : Prop :=
  Names (matchValue row) principal ∧ PatternMatches (matchValue row) op

def InPass (deny : Bool) (row : Value) : Prop := isText (optionalProperty row "decision") "deny" = deny

/-- The rows that one pass comes to can be read. -/
def PassReads (deny : Bool) (principal op : JsString) : List Value → Prop
  | [] => True
  | row :: rest => ¬ Nullish row ∧ (InPass deny row → RowReads row principal) ∧
      ((InPass deny row → ¬ Applies row principal op) → PassReads deny principal op rest)

def TableReads (doc : Value) : Prop :=
  ∃ rows, iterate (optionalProperty doc "riskTable") = .ok rows ∧
    ∀ row ∈ rows, ∃ pattern, optionalProperty row "op" = .string pattern

variable {v row doc : Value} {rows : List Value} {principal op : JsString} {deny : Bool}

lemma property_ok (h : ¬ Nullish v) (name : String) : property v name = .ok (optionalProperty v name) := by
  cases v with
  | undefined => exact absurd (Or.inl rfl) h
  | null => exact absurd (Or.inr rfl) h
  | _ => rfl

lemma not_nullish_of_property {w : Value} {name : String} (h : property v name = .ok w) :
    ¬ Nullish v ∧ optionalProperty v name = w := by
  refine ⟨?_, by rw [optionalProperty, h]⟩
  rintro (rfl | rfl) <;> cases h

lemma matchOf_eq (h : ¬ Nullish row) : matchOf row = .ok (matchValue row) := by
  cases row with
  | string s => rfl
  | undefined => exact absurd (Or.inl rfl) h
  | null => exact absurd (Or.inr rfl) h
  | _ => rfl

lemma matchesOp_cases (m : Value) (op : JsString) :
    (∃ b, ruleMatches.matchesOp op m = .ok b ∧ (b = true ↔ PatternMatches m op) ∧ PatternReads m) ∨
    (∃ err, ruleMatches.matchesOp op m = .error err) ∧ ¬ PatternReads m := by
  rw [ruleMatches.matchesOp, PatternMatches, PatternReads]
  cases hop : optionalProperty m "op" with
  | undefined => exact Or.inl ⟨true, rfl, by simp, Or.inl rfl⟩
  | string pattern => exact Or.inl ⟨opMatches pattern op, rfl, by simp, Or.inr ⟨pattern, rfl⟩⟩
  | _ => exact Or.inr ⟨⟨_, rfl⟩, by simp⟩

lemma ruleMatches_cases (principal op : JsString) (hrow : ¬ Nullish row) :
    (∃ b, ruleMatches row principal op = .ok b ∧ (b = true ↔ Applies row principal op) ∧
      RowReads row principal) ∨
    (∃ err, ruleMatches row principal op = .error err) ∧ ¬ RowReads row principal := by
  rw [ruleMatches, matchOf_eq hrow, ok_bind]
  by_cases hm : Nullish (matchValue row)
  · refine Or.inr ⟨?_, fun h => h.1 hm⟩
    obtain hm | hm := hm <;> rw [hm] <;> exact ⟨_, rfl⟩
  · rw [property_ok hm, ok_bind]
    -- a principal that the match does not name leaves the pattern unread
    have hother : ∀ result : Except String Bool, result = .ok false → ¬ Names (matchValue row) principal →
        (∃ b, result = .ok b ∧ (b = true ↔ Applies row principal op) ∧ RowReads row principal) ∨
          (∃ err, result = .error err) ∧ ¬ RowReads row principal := by
      intro result hresult hnames
      refine Or.inl ⟨false, hresult, ⟨nofun, fun h => absurd h.1 hnames⟩, hm, fun h => absurd h hnames⟩
    have hnamed : Names (matchValue row) principal →
        (∃ b, ruleMatches.matchesOp op (matchValue row) = .ok b ∧ (b = true ↔ Applies row principal op) ∧
          RowReads row principal) ∨
        (∃ err, ruleMatches.matchesOp op (matchValue row) = .error err) ∧ ¬ RowReads row principal := by
      intro hnames
      obtain ⟨b, hb, hiff, hreads⟩ | ⟨herr, hunread⟩ := matchesOp_cases (matchValue row) op
      · exact Or.inl ⟨b, hb, hiff.trans ⟨fun h => ⟨hnames, h⟩, And.right⟩, hm, fun _ => hreads⟩
      · exact Or.inr ⟨herr, fun h => hunread (h.2 hnames)⟩
    cases hwho : optionalProperty (matchValue row) "principal" with
    | undefined => exact hnamed (Or.inl hwho)
    | string s =>
      dsimp only
      by_cases hs : s = principal
      · rw [if_pos hs]
        exact hnamed (Or.inr (hs ▸ hwho))
      · rw [if_neg hs]
        exact hother _ rfl (by simp [Names, hwho, hs])
    | _ => exact hother _ rfl (by simp [Names, hwho])

/-- A pass ends with the first of its rows that applies, if it comes to the end. -/
lemma firstMatch_cases (deny : Bool) (principal op : JsString) (rows : List Value) :
    (∃ found, firstMatch deny principal op rows = .ok found ∧ PassReads deny principal op rows ∧
      (found = none ↔ ∀ row ∈ rows, InPass deny row → ¬ Applies row principal op)) ∨
    (∃ err, firstMatch deny principal op rows = .error err) ∧ ¬ PassReads deny principal op rows := by
  induction rows with
  | nil => exact Or.inl ⟨none, rfl, trivial, by simp⟩
  | cons row rest ih =>
    rw [firstMatch, PassReads, List.forall_mem_cons]
    by_cases hrow : Nullish row
    · refine Or.inr ⟨?_, fun h => h.1 hrow⟩
      obtain hrow | hrow := hrow <;> rw [hrow] <;> exact ⟨_, rfl⟩
    rw [property_ok hrow, ok_bind]
    by_cases hpass : isText (optionalProperty row "decision") "deny" = deny
    · rw [if_pos hpass]
      obtain ⟨b, hb, hiff, hreads⟩ | ⟨⟨err, herr⟩, hunread⟩ := ruleMatches_cases principal op hrow
      · rw [hb, ok_bind]
        cases b with
        | true =>
          have happlies := hiff.mp rfl
          refine Or.inl ⟨some row, rfl, ⟨hrow, fun _ => hreads, fun h => absurd happlies (h hpass)⟩, ?_⟩
          exact ⟨nofun, fun h => absurd happlies (h.1 hpass)⟩
        | false =>
          have hnot : ¬ Applies row principal op := fun h => nomatch hiff.mpr h
          obtain ⟨found, hfound, hrest, hnone⟩ | ⟨herr, hrest⟩ := ih
          · refine Or.inl ⟨found, hfound, ⟨hrow, fun _ => hreads, fun _ => hrest⟩, ?_⟩
            exact hnone.trans ⟨fun h => ⟨fun _ => hnot, h⟩, And.right⟩
          · exact Or.inr ⟨herr, fun h => hrest (h.2.2 fun _ => hnot)⟩
      · rw [herr]
        exact Or.inr ⟨⟨err, rfl⟩, fun h => hunread (h.2.1 hpass)⟩
    · rw [if_neg hpass]
      obtain ⟨found, hfound, hrest, hnone⟩ | ⟨herr, hrest⟩ := ih
      · refine Or.inl ⟨found, hfound, ⟨hrow, fun h => absurd h hpass, fun _ => hrest⟩, ?_⟩
        exact hnone.trans ⟨fun h => ⟨fun hin => absurd hin hpass, h⟩, And.right⟩
      · exact Or.inr ⟨herr, fun h => hrest (h.2.2 fun hin => absurd hin hpass)⟩

lemma readRiskEntry_ok_iff : (∃ r, readRiskEntry row = .ok r) ↔
    ∃ pattern, optionalProperty row "op" = .string pattern := by
  by_cases hrow : Nullish row
  · obtain rfl | rfl := hrow
    · exact iff_of_false nofun nofun
    · exact iff_of_false nofun nofun
  · rw [readRiskEntry, property_ok hrow, ok_bind]
    cases optionalProperty row "op" with
    | string pattern => exact ⟨fun _ => ⟨pattern, rfl⟩, fun _ => ⟨_, rfl⟩⟩
    | _ => exact iff_of_false nofun nofun

lemma classifyRisk_ok_iff (op : JsString) (hdoc : ¬ Nullish doc) : (∃ risk, classifyRisk doc op = .ok risk) ↔ TableReads doc := by
  have hindex : (∃ risk, classifyRisk doc op = .ok risk) ↔ ∃ idx, riskIndex doc = .ok idx := by
    rw [classifyRisk]
    cases riskIndex doc with
    | error err =>
      apply iff_of_false
      · rintro ⟨_, hok⟩
        cases hok
      · rintro ⟨_, hok⟩
        cases hok
    | ok idx => exact ⟨fun _ => ⟨idx, rfl⟩, fun _ => ⟨_, rfl⟩⟩
  rw [hindex, riskIndex, property_ok hdoc, ok_bind, TableReads]
  cases hrows : iterate (optionalProperty doc "riskTable") with
  | error err =>
    apply iff_of_false
    · rintro ⟨_, hok⟩
      cases hok
    · rintro ⟨_, hok, _⟩
      cases hok
  | ok rows =>
    have hentries : (∃ entries, rows.mapM readRiskEntry = .ok entries) ↔
        ∀ row ∈ rows, ∃ pattern, optionalProperty row "op" = .string pattern := by
      rw [mapM_ok_iff]
      exact forall₂_congr fun row _ => readRiskEntry_ok_iff
    rw [ok_bind]
    constructor
    · rintro ⟨idx, hidx⟩
      obtain ⟨entries, hmap, _⟩ := bind_eq_ok hidx
      exact ⟨rows, rfl, hentries.mp ⟨entries, hmap⟩⟩
    · rintro ⟨_, hsame, hall⟩
      cases hsame
      obtain ⟨entries, hmap⟩ := hentries.mpr hall
      rw [hmap]
      exact ⟨_, rfl⟩

/-- What the interpreter comes to in a document: rows that can be read as far as the passes come, a table of
risks, and a default for the class where no row applies. -/
structure PolicyReads (doc : Value) (principal op : JsString) : Prop where
  there : ¬ Nullish doc
  rules : ∃ rows, iterate (optionalProperty doc "rules") = .ok rows ∧ PassReads true principal op rows ∧
    ((∀ row ∈ rows, InPass true row → ¬ Applies row principal op) → PassReads false principal op rows ∧
      ((∀ row ∈ rows, InPass false row → ¬ Applies row principal op) → ∃ risk action,
        classifyRisk doc op = .ok risk ∧ index (optionalProperty doc "riskDefaults") risk = .ok action ∧
          ¬ Nullish action))
  table : TableReads doc

lemma not_nullish_actionOf (decision reason : Value) : ¬ Nullish (actionOf decision reason) := by
  rintro (h | h) <;> cases h

lemma PolicyReads.eval (h : PolicyReads doc principal op) :
    ∃ action, evalPolicy doc principal op = .ok action ∧ ¬ Nullish action := by
  obtain ⟨hdoc, ⟨rows, hrows, hdeny, hrest⟩, htable⟩ := h
  obtain ⟨risk, hrisk⟩ := (classifyRisk_ok_iff op hdoc).mpr htable
  rw [evalPolicy, property_ok hdoc, ok_bind, hrows, ok_bind, hrisk]
  obtain ⟨denying, hdenying, _, hnone⟩ | ⟨_, hunread⟩ := firstMatch_cases true principal op rows
  on_goal 2 => exact absurd hdeny hunread
  rw [hdenying, ok_bind]
  cases denying with
  | some rule => exact ⟨_, rfl, not_nullish_actionOf _ _⟩
  | none =>
    obtain ⟨hothers, hdefault⟩ := hrest (hnone.mp rfl)
    obtain ⟨other, hother, _, hnone⟩ | ⟨_, hunread⟩ := firstMatch_cases false principal op rows
    on_goal 2 => exact absurd hothers hunread
    dsimp only
    rw [hother, ok_bind]
    cases other with
    | some rule => exact ⟨_, rfl, not_nullish_actionOf _ _⟩
    | none =>
      obtain ⟨class', action, hclass, haction, hthere⟩ := hdefault (hnone.mp rfl)
      cases hrisk.symm.trans hclass
      exact ⟨action, haction, hthere⟩

lemma policyReads_of_eval {action : Value} (h : evalPolicy doc principal op = .ok action)
    (haction : ¬ Nullish action) : PolicyReads doc principal op := by
  rw [evalPolicy] at h
  obtain ⟨ruleTable, hrules, h⟩ := bind_eq_ok h
  obtain ⟨hdoc, hvalue⟩ := not_nullish_of_property hrules
  obtain ⟨rows, hrows, h⟩ := bind_eq_ok h
  obtain ⟨denying, hdenying, h⟩ := bind_eq_ok h
  rw [← hvalue] at hrows
  obtain ⟨_, hfound, hdeny, hnone⟩ | ⟨⟨_, herr⟩, _⟩ := firstMatch_cases true principal op rows
  on_goal 2 => cases hdenying.symm.trans herr
  cases hdenying.symm.trans hfound
  cases denying with
  | some rule =>
    obtain ⟨risk, hrisk, _⟩ := bind_eq_ok h
    refine ⟨hdoc, ⟨rows, hrows, hdeny, fun hnot => ?_⟩, (classifyRisk_ok_iff op hdoc).mp ⟨risk, hrisk⟩⟩
    cases hnone.mpr hnot
  | none =>
    obtain ⟨other, hother, h⟩ := bind_eq_ok h
    obtain ⟨_, hfound, hothers, hnone⟩ | ⟨⟨_, herr⟩, _⟩ := firstMatch_cases false principal op rows
    on_goal 2 => cases hother.symm.trans herr
    cases hother.symm.trans hfound
    cases other with
    | some rule =>
      obtain ⟨risk, hrisk, _⟩ := bind_eq_ok h
      refine ⟨hdoc, ⟨rows, hrows, hdeny, fun _ => ⟨hothers, fun hnot => ?_⟩⟩,
        (classifyRisk_ok_iff op hdoc).mp ⟨risk, hrisk⟩⟩
      cases hnone.mpr hnot
    | none =>
      obtain ⟨risk, hrisk, hindex⟩ := bind_eq_ok h
      exact ⟨hdoc, ⟨rows, hrows, hdeny, fun _ => ⟨hothers, fun _ => ⟨risk, action, hrisk, hindex, haction⟩⟩⟩,
        (classifyRisk_ok_iff op hdoc).mp ⟨risk, hrisk⟩⟩

/-- Beside that, the reason of an action that asks for a consent, and gets it, is words. -/
def Readable (doc : Value) (granted : Bool) (principal op : JsString) : Prop :=
  PolicyReads doc principal op ∧ ∀ action, evalPolicy doc principal op = .ok action → granted = true →
    isText (optionalProperty action "decision") "require-consent" = true →
      hasText (optionalProperty action "reason") = true

lemma hasText_of_ok {text : JsString} (h : toJsString v = .ok text) : hasText v = true := by
  unfold toJsString at h
  split_ifs at h with htext
  exact htext

/-- The resolver throws on no other documents. -/
lemma resolve_ok_iff {consents : ConsentTable} :
    (∃ r, resolve doc consents principal op = .ok r) ↔
      Readable doc (consents.hasMatchingGrant principal op).isSome principal op := by
  constructor
  · rintro ⟨r, h⟩
    obtain ⟨action, haction, h⟩ := bind_eq_ok h
    obtain ⟨d, hd, h⟩ := bind_eq_ok h
    obtain ⟨hthere, hvalue⟩ := not_nullish_of_property hd
    refine ⟨policyReads_of_eval haction hthere, fun found hfound hgranted hask => ?_⟩
    cases haction.symm.trans hfound
    rw [hvalue] at hask
    obtain ⟨grant, hgrant⟩ := Option.isSome_iff_exists.mp hgranted
    rw [if_pos hask, hgrant] at h
    obtain ⟨text, htext, _⟩ := bind_eq_ok h
    exact hasText_of_ok htext
  · rintro ⟨hreads, hreason⟩
    obtain ⟨action, haction, hthere⟩ := hreads.eval
    rw [resolve, haction, ok_bind, property_ok hthere, ok_bind]
    dsimp only
    split_ifs with hask
    · cases hgrant : consents.hasMatchingGrant principal op with
      | none => exact ⟨_, rfl⟩
      | some grant =>
        have htext := hreason action haction (by rw [hgrant]; rfl) hask
        dsimp only
        rw [toJsString, if_pos htext]
        exact ⟨_, rfl⟩
    · exact ⟨_, rfl⟩

end Reading

section Shadows

/-- `v.name = w`, which nothing that is not an object takes. -/
def assignProperty (v : Value) (name : String) (w : Value) : Except String Value :=
  match v with
  | .object members => return .object (assign members (ofText name) w)
  | .array items => return .array items
  | _ => throw ("TypeError: cannot assign " ++ name)

def denyExternal : Value := riskDefaultRow "deny" true "shadow: external mutations denied"

/-- A property of the spec that is there replaces the one of the document. -/
def override (spec doc : Value) (name : String) : Except String Value :=
  let given := optionalProperty spec name
  if given.isUndefined then return doc else assignProperty doc name given

def requireDefaults (doc : Value) : Except String Unit :=
  ["EXTERNAL_MUTATION", "MUTATION", "READ"].forM fun risk => do
    let defaults ← property doc "riskDefaults"
    let row ← property defaults risk
    require (!isFalsy row) ("normalizeShadowSpec: policy doc missing riskDefaults." ++ risk)

def normalizeShadowSpec (primary spec : Value) : Except String Value := do
  let policy := optionalProperty spec "policy"
  let doc ← serialized (if isFalsy policy then primary else policy)
  let doc ← override spec doc "policyId"
  let doc ← override spec doc "description"
  let doc ← if isFalsy (optionalProperty spec "denyExternalMutations") then return doc
    else do
      let defaults ← property doc "riskDefaults"
      let stricter ← assignProperty defaults "EXTERNAL_MUTATION" denyExternal
      assignProperty doc "riskDefaults" stricter
  requireDefaults doc
  return doc

structure DivergenceRecord where
  ts : Number
  principal : JsString
  op : JsString
  causationId : JsString
  primary : Value × Value
  shadow : Value × Value
  shadowPolicyId : Value

structure ShadowAmendment where
  shadow : Option Value
  registeredAt : Number
  divergences : List DivergenceRecord

namespace ShadowAmendment

variable (a : ShadowAmendment)

def registerShadow (spec : Value) (now : Number) : Except String ShadowAmendment := do
  let doc ← normalizeShadowSpec LAW_POLICY_V1 spec
  return ⟨some doc, now, []⟩

def clearShadow : ShadowAmendment := { a with shadow := none }

def doc : Except String (Option Value) :=
  match a.shadow with
  | none => return none
  | some stored => (serialized stored).map some

/-- Decisions are compared as strings are; the shipped policy decides nothing else. -/
def sameDecision : Value → Value → Bool
  | .string a, .string b => a = b
  | _, _ => false

def observe (principal op causationId : JsString) (primary shadowed : Resolved) (now : Number) :
    ShadowAmendment :=
  if sameDecision primary.decision shadowed.decision then a
  else
    let policyId := match a.shadow.map fun stored => optionalProperty stored "policyId" with
      | none | some .undefined | some .null => jsText "none"
      | some id => id
    { a with divergences := a.divergences ++ [⟨now, principal, op, causationId,
      (primary.decision, primary.reason), (shadowed.decision, shadowed.reason), policyId⟩] }

end ShadowAmendment

def hasNoKeys : Value → Bool
  | .object members => members.isEmpty
  | .array items => items.isEmpty
  | _ => true

/-- `law.amendment@1`: what it leaves of the shadow. A refused spec leaves the one before. -/
def amend (a : ShadowAmendment) (payload : Value) (now : Number) : Except String ShadowAmendment :=
  let p := asObj payload
  let action := str (optionalProperty p "action")
  if action = ofText "register-shadow" then
    let spec := asObj (optionalProperty p "policy")
    if hasNoKeys spec then throw "law.amendment: register-shadow requires a policy spec"
    else ShadowAmendment.registerShadow spec now
  else if action = ofText "clear-shadow" then return a.clearShadow
  else return a

end Shadows

section Checks

structure LawDecision where
  decision : Value
  reason : Value
  principal : JsString
  consentId : Option JsString

structure LawState where
  gate : Ceremonies
  amendment : ShadowAmendment

inductive LawEvent
  | ceremony (e : CeremonyEvent)
  | amendment (payload : Value) (now : Number)
  | check (payload : Value) (causationId : JsString) (now : Number)

/-- `law.check@1`: the shadow is resolved beside the decision, and the divergence is kept. -/
def lawCheck (s : LawState) (payload : Value) (causationId : JsString) (now : Number) :
    Except String (LawDecision × ShadowAmendment) := do
  let p := asObj payload
  let principal := str (optionalProperty p "principal")
  let op := str (optionalProperty p "op")
  let causationId := (optStr (optionalProperty p "causationId")).getD causationId
  let primary ← gate s.gate.consents s.gate.forbidden principal op
  let decision := ⟨primary.decision, primary.reason, principal, primary.consentId⟩
  let shadowDoc ← s.amendment.doc
  match shadowDoc with
  | none => return (decision, s.amendment)
  | some doc => do
    let shadowed ← resolve doc s.gate.consents principal op
    return (decision, s.amendment.observe principal op causationId primary shadowed now)

def lawStep (s : LawState) : LawEvent → LawState
  | .ceremony e => { s with gate := (s.gate.step e).getD s.gate }
  | .amendment payload now => { s with amendment := (amend s.amendment payload now).toOption.getD s.amendment }
  | .check payload causationId now =>
    { s with amendment := ((lawCheck s payload causationId now).toOption.map Prod.snd).getD s.amendment }

def lawAnswer (s : LawState) : LawEvent → Option (Except String LawDecision)
  | .check payload causationId now => some ((lawCheck s payload causationId now).map Prod.fst)
  | _ => none

def law : Reactor LawState LawEvent (Except String LawDecision) := ⟨lawStep, lawAnswer⟩

def isLive : LawEvent → Bool
  | .amendment _ _ => false
  | _ => true

/-- The shadow, if there is one, can be read for what is checked. -/
def ShadowReads (s : LawState) : LawEvent → Prop
  | .check payload _ _ => ∀ stored, s.amendment.shadow = some stored →
      ∃ doc, serialized stored = .ok doc ∧
        let principal := str (optionalProperty (asObj payload) "principal")
        let op := str (optionalProperty (asObj payload) "op")
        Readable doc (s.gate.consents.hasMatchingGrant principal op).isSome principal op
  | _ => True

variable {s t : LawState} {payload : Value} {causationId : JsString} {now : Number}

lemma gate_shipped (consents : ConsentTable) (forbidden : ForbiddenTable) (principal op : JsString) :
    ∃ r, gate consents forbidden principal op = .ok r := by
  obtain ⟨action, haction, _⟩ := evalPolicy_shipped principal op
  obtain ⟨r, hr, _⟩ := resolve_shipped consents haction
  rw [gate, hr, ok_bind]
  split_ifs <;> exact ⟨_, rfl⟩

/-- The decision that a check comes to without a shadow. -/
def liveDecision (g : Ceremonies) (payload : Value) : Except String LawDecision := do
  let principal := str (optionalProperty (asObj payload) "principal")
  let primary ← gate g.consents g.forbidden principal (str (optionalProperty (asObj payload) "op"))
  return ⟨primary.decision, primary.reason, principal, primary.consentId⟩

/-- A check answers with the live decision, unless the shadow cannot be read. -/
lemma lawCheck_cases (s : LawState) (payload : Value) (causationId : JsString) (now : Number) :
    ∃ d, liveDecision s.gate payload = .ok d ∧
      ((∃ a, lawCheck s payload causationId now = .ok (d, a) ∧ a.shadow = s.amendment.shadow ∧
          ShadowReads s (.check payload causationId now)) ∨
        (∃ err, lawCheck s payload causationId now = .error err) ∧
          ¬ ShadowReads s (.check payload causationId now)) := by
  let principal := str (optionalProperty (asObj payload) "principal")
  let op := str (optionalProperty (asObj payload) "op")
  obtain ⟨primary, hprimary⟩ := gate_shipped s.gate.consents s.gate.forbidden principal op
  refine ⟨⟨primary.decision, primary.reason, principal, primary.consentId⟩, ?_, ?_⟩
  · rw [liveDecision, hprimary]
    rfl
  rw [lawCheck, hprimary, ok_bind, ShadowAmendment.doc]
  cases hshadow : s.amendment.shadow with
  | none =>
    refine Or.inl ⟨s.amendment, rfl, hshadow, fun stored hstored => ?_⟩
    cases hshadow.symm.trans hstored
  | some stored =>
    dsimp only
    cases hdoc : serialized stored with
    | error err =>
      refine Or.inr ⟨⟨err, rfl⟩, fun h => ?_⟩
      obtain ⟨_, hsome, _⟩ := h stored hshadow
      cases hdoc.symm.trans hsome
    | ok doc =>
      have hreads : ShadowReads s (.check payload causationId now) ↔
          ∃ r, resolve doc s.gate.consents principal op = .ok r := by
        rw [resolve_ok_iff]
        constructor
        · intro h
          obtain ⟨_, hsome, hreads⟩ := h stored hshadow
          cases hdoc.symm.trans hsome
          exact hreads
        · intro hreads found hfound
          cases hshadow.symm.trans hfound
          exact ⟨doc, hdoc, hreads⟩
      rw [hreads]
      change (∃ a, (resolve doc s.gate.consents principal op >>= _) = _ ∧ _) ∨
        (∃ err, (resolve doc s.gate.consents principal op >>= _) = _) ∧ _
      cases resolve doc s.gate.consents principal op with
      | error err => exact Or.inr ⟨⟨err, rfl⟩, nofun⟩
      | ok shadowed =>
        refine Or.inl ⟨_, rfl, ?_, shadowed, rfl⟩
        rw [ShadowAmendment.observe]
        split_ifs <;> exact hshadow

/-- Two runs, one with amendments and one without, that have had the same ceremonies. -/
def SameGate (s t : LawState) : Prop := s.gate = t.gate ∧ t.amendment.shadow = none

lemma reads_without (h : t.amendment.shadow = none) : ShadowReads t (.check payload causationId now) := by
  intro stored hstored
  cases h.symm.trans hstored

lemma sameGate_step {e : LawEvent} (h : SameGate s t) (hlive : isLive e = true) :
    SameGate (lawStep s e) (lawStep t e) := by
  obtain ⟨hgate, hnone⟩ := h
  cases e with
  | ceremony e => exact ⟨by rw [lawStep, lawStep, hgate], hnone⟩
  | amendment payload now => cases hlive
  | check payload causationId now =>
    refine ⟨hgate, ?_⟩
    obtain ⟨d, _, ⟨a, hcheck, ha, _⟩ | ⟨_, hunread⟩⟩ := lawCheck_cases t payload causationId now
    · rw [lawStep, hcheck]
      exact ha.trans hnone
    · exact absurd (reads_without hnone) hunread

lemma lawAnswer_eq_iff {e : LawEvent} (h : SameGate s t) : lawAnswer s e = lawAnswer t e ↔ ShadowReads s e := by
  cases e with
  | ceremony e => exact iff_of_true rfl trivial
  | amendment payload now => exact iff_of_true rfl trivial
  | check payload causationId now =>
    obtain ⟨hgate, hnone⟩ := h
    obtain ⟨d, hlive, ⟨a, hcheck, _⟩ | ⟨_, hunread⟩⟩ := lawCheck_cases t payload causationId now
    on_goal 2 => exact absurd (reads_without hnone) hunread
    obtain ⟨d', hlive', hcases⟩ := lawCheck_cases s payload causationId now
    rw [← hgate, hlive'] at hlive
    cases hlive
    rw [lawAnswer, lawAnswer, hcheck]
    obtain ⟨a', hcheck', _, hreads⟩ | ⟨⟨err, herr⟩, hunread⟩ := hcases
    · rw [hcheck']
      exact iff_of_true rfl hreads
    · rw [herr]
      exact iff_of_false (fun h => nomatch Option.some.inj h) hunread

/-- Amendments change no answer just where every check can read the shadow it finds. -/
theorem shadow_silent_iff (s : LawState) (hnone : s.amendment.shadow = none) (es : List LawEvent) :
    law.answers s es = law.answers s (es.filter isLive) ↔ ∀ x ∈ law.visited s es, ShadowReads x.1 x.2 := by
  have hsame : SameGate s s := ⟨rfl, hnone⟩
  have hiff := law.answers_filter_iff isLive SameGate ShadowReads ?_ ?_ ?_ ?_ ?_ es hsame
  · refine hiff.trans (forall₂_congr fun x _ => ?_)
    obtain ⟨s, e⟩ := x
    cases e with
    | ceremony e => exact ⟨fun _ => trivial, fun _ _ => trivial⟩
    | amendment payload now => exact ⟨fun _ => trivial, fun _ _ => trivial⟩
    | check payload causationId now => exact ⟨fun h => h rfl, fun h _ => h⟩
  · intro s e hlive
    cases e with
    | amendment payload now => rfl
    | ceremony e => cases hlive
    | check payload causationId now => cases hlive
  · intro s t e h hlive
    cases e with
    | amendment payload now => exact h
    | ceremony e => cases hlive
    | check payload causationId now => cases hlive
  · exact fun s t e h hlive => sameGate_step h hlive
  · intro s t e
    cases e <;> rfl
  · exact fun s t e h _ => lawAnswer_eq_iff h

def noAmendment : LawState := ⟨noCeremonies, ⟨none, .zero, []⟩⟩

/-- A document that has three defaults and nothing else. -/
def bareShadow : Value :=
  .object [(ofText "action", jsText "register-shadow"), (ofText "policy", .object [(ofText "policy",
    .object [(ofText "riskDefaults", .object [(ofText "EXTERNAL_MUTATION", .bool true),
      (ofText "MUTATION", .bool true), (ofText "READ", .bool true)])])])]

def checkPayload : Value :=
  .object [(ofText "principal", .string userAlice), (ofText "op", jsText "vault.append@1")]

def shadowedCheck : List LawEvent := [.amendment bareShadow .zero, .check checkPayload (ofText "c1") .zero]

/-- The check fails with the shadow and answers without it. -/
lemma shadowedCheck_differs : law.answers noAmendment shadowedCheck ≠
    law.answers noAmendment (shadowedCheck.filter isLive) := by
  intro h
  have hshadowed : (law.answers noAmendment shadowedCheck).map (fun r => r.toOption.isSome) = [false] := by
    decide
  have halone : (law.answers noAmendment (shadowedCheck.filter isLive)).map (fun r => r.toOption.isSome) =
      [true] := by
    decide
  rw [h, halone] at hshadowed
  cases hshadowed

theorem shadow_silent_iff_bare : ¬ ∀ x ∈ law.visited noAmendment shadowedCheck, ShadowReads x.1 x.2 :=
  fun h => shadowedCheck_differs ((shadow_silent_iff noAmendment rfl shadowedCheck).mpr h)

/-- A shadow turns a check into an error. -/
theorem shadow_breaks_check : ¬ ∀ (s : LawState), s.amendment.shadow = none → ∀ es : List LawEvent,
    law.answers s es = law.answers s (es.filter isLive) :=
  fun h => shadowedCheck_differs (h noAmendment rfl shadowedCheck)

end Checks

end VivimOmega.Law

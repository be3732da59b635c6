import VivimOmega.Gates.Watch
import VivimOmega.Library.Lines

/-! Delegation tokens: what they bound, and the acts that they let through. -/

namespace VivimOmega.Gates

open Library Library.Json

section Tokens

structure BDT where
  tokenId : JsString
  grantor : JsString
  grantee : JsString
  scope : List JsString
  budgetCeiling : Number
  maxSteps : Number
  expiresAt : Number
  transitive : Bool
  signedBy : JsString

structure Mint where
  grantor : JsString
  grantee : JsString
  scope : List JsString
  budgetCeiling : Number
  maxSteps : Number
  expiresAt : Option Number
  signed : Bool

def unsigned : Refusal := ⟨"DELEGATION_UNSIGNED", "Delegation requires an explicit human consent tap. No tap, no leash."⟩

/-- What a token's id is the hash of. -/
def tokenText (grantor grantee : JsString) (expiresAt : Number) : JsString :=
  ofText "bdt|" ++ (grantor ++ bar :: grantee) ++ bar :: numberUnits expiresAt

def unbounded : Refusal := ⟨"DELEGATION_UNBOUNDED",
  "Every delegation names its bounds: scope, budget, steps, TTL. Forever is not a valid expiration date."⟩

def mintDelegation (m : Mint) : Except Refusal BDT :=
  if !m.signed then throw unsigned
  else
    match m.expiresAt with
    | none => throw unbounded
    | some expiresAt =>
      if m.budgetCeiling.le .zero ∨ m.maxSteps.le .zero ∨ m.scope = [] then throw unbounded
      else return ⟨hash53 (tokenText m.grantor m.grantee expiresAt), m.grantor, m.grantee, m.scope, m.budgetCeiling,
        m.maxSteps, expiresAt, false, m.grantor⟩

structure AgentAct where
  actor : JsString
  authority : JsString
  ns : JsString
  stepsUsed : Number
  budgetSpent : Number
  nowMs : Number

/-- Who acts, and by which token. -/
structure Stamp where
  actor : JsString
  authority : JsString

def agentInvoke (token : Option BDT) (act : AgentAct) : Except Refusal Stamp :=
  let agent := "Agent " ++ toText act.actor
  match token with
  | none => throw unsigned
  | some token =>
    if act.ns ∉ token.scope then throw ⟨"DELEGATION_SCOPE_VIOLATION", agent ++ " attempted to access " ++ toText act.ns ++
      ", but its delegation token only grants access to " ++ ", ".intercalate (token.scope.map toText) ++ ". Refused."⟩
    else if token.expiresAt.lt act.nowMs then
      throw ⟨"DELEGATION_EXPIRED", "The delegation token for " ++ agent ++ " expired. Refused."⟩
    else if token.maxSteps.le act.stepsUsed then throw ⟨"DELEGATION_STEPS_EXHAUSTED",
      agent ++ " has consumed its delegated step allowance. The leash has snapped. Refused."⟩
    else if token.budgetCeiling.le act.budgetSpent then throw ⟨"DELEGATION_BUDGET_EXHAUSTED",
      agent ++ " has consumed its delegated budget ceiling. The leash has snapped. Refused."⟩
    else return ⟨act.actor, token.tokenId⟩

end Tokens

section Leashes

/-- The act keeps to the token: its agent, its scope, a finite expiry, its steps and its budget. -/
structure Leashed (t : BDT) (act : AgentAct) : Prop where
  grantee : act.actor = t.grantee
  scope : act.ns ∈ t.scope
  finite : t.expiresAt.IsFinite
  unexpired : act.nowMs.le t.expiresAt = true
  steps : act.stepsUsed.lt t.maxSteps = true
  budget : act.budgetSpent.lt t.budgetCeiling = true

/-- The token's own agent acts, and no number of the two is without an order, nor the expiry without an end. -/
structure Firm (m : Mint) (act : AgentAct) : Prop where
  grantee : act.actor = m.grantee
  finite : ∃ expiresAt, m.expiresAt = some expiresAt ∧ expiresAt.IsFinite
  now : act.nowMs ≠ .nan
  steps : act.stepsUsed ≠ .nan ∧ m.maxSteps ≠ .nan
  budget : act.budgetSpent ≠ .nan ∧ m.budgetCeiling ≠ .nan

/-- Two mints of one grantor to one grantee with the same bounds. -/
def SameMint (m m' : Mint) : Prop :=
  m.grantor = m'.grantor ∧ m.grantee = m'.grantee ∧ m.scope = m'.scope ∧ m.budgetCeiling = m'.budgetCeiling ∧
    m.maxSteps = m'.maxSteps ∧ m.expiresAt = m'.expiresAt

def Distinct (m m' : Mint) : Prop :=
  m.expiresAt ≠ m'.expiresAt ∨ m.grantor ++ bar :: m.grantee ≠ m'.grantor ++ bar :: m'.grantee

variable {m m' : Mint} {t t' : BDT} {act : AgentAct} {a b : Number}

lemma lt_iff_not_le : a.lt b = true ↔ b.le a = false ∧ a ≠ .nan ∧ b ≠ .nan := by
  by_cases ha : a = .nan
  · subst ha
    simp [Number.lt, Number.rank]
  by_cases hb : b = .nan
  · subst hb
    cases a <;> simp [Number.lt, Number.rank]
  obtain ⟨x, hx⟩ := Option.isSome_iff_exists.mp (rank_isSome.mpr ha)
  obtain ⟨y, hy⟩ := Option.isSome_iff_exists.mp (rank_isSome.mpr hb)
  simp [Number.lt, Number.le, hx, hy, ha, hb]

lemma le_iff_not_lt : a.le b = true ↔ b.lt a = false ∧ a ≠ .nan ∧ b ≠ .nan := by
  by_cases ha : a = .nan
  · subst ha
    simp [Number.le, Number.rank]
  by_cases hb : b = .nan
  · subst hb
    cases a <;> simp [Number.le, Number.rank]
  obtain ⟨x, hx⟩ := Option.isSome_iff_exists.mp (rank_isSome.mpr ha)
  obtain ⟨y, hy⟩ := Option.isSome_iff_exists.mp (rank_isSome.mpr hb)
  simp [Number.lt, Number.le, hx, hy, ha, hb]

lemma mint_ok (h : mintDelegation m = .ok t) : t.grantee = m.grantee ∧ t.scope = m.scope ∧
    t.budgetCeiling = m.budgetCeiling ∧ t.maxSteps = m.maxSteps ∧ m.expiresAt = some t.expiresAt ∧
    t.tokenId = hash53 (tokenText m.grantor m.grantee t.expiresAt) := by
  unfold mintDelegation at h
  cases hexpires : m.expiresAt with
  | none =>
    simp only [hexpires] at h
    split_ifs at h
  | some expiresAt =>
    simp only [hexpires] at h
    split_ifs at h
    cases h
    exact ⟨rfl, rfl, rfl, rfl, rfl, rfl⟩

lemma agentInvoke_ok {stamp : Stamp} (h : agentInvoke (some t) act = .ok stamp) : act.ns ∈ t.scope ∧
    t.expiresAt.lt act.nowMs = false ∧ t.maxSteps.le act.stepsUsed = false ∧ t.budgetCeiling.le act.budgetSpent = false := by
  unfold agentInvoke at h
  dsimp only at h
  split_ifs at h with hscope hexpired hsteps hbudget
  exact ⟨hscope, Bool.not_eq_true _ ▸ hexpired, Bool.not_eq_true _ ▸ hsteps, Bool.not_eq_true _ ▸ hbudget⟩

lemma not_nan_of_finite (h : a.IsFinite) : a ≠ .nan := by
  rintro rfl
  exact h

/-- An act that is let through keeps to the token just where the act and the mint are firm. -/
lemma leashed_iff (hmint : mintDelegation m = .ok t) {stamp : Stamp} (hact : agentInvoke (some t) act = .ok stamp) :
    Leashed t act ↔ Firm m act := by
  obtain ⟨hgrantee, -, hceiling, hmax, hexpires, -⟩ := mint_ok hmint
  obtain ⟨hscope, hexpired, hsteps, hbudget⟩ := agentInvoke_ok hact
  constructor
  · rintro ⟨hactor, -, hfinite, hunexpired, hleft, hmoney⟩
    obtain ⟨-, hnow, -⟩ := le_iff_not_lt.mp hunexpired
    obtain ⟨-, hused, hmaxSteps⟩ := lt_iff_not_le.mp hleft
    obtain ⟨-, hspent, hbudgetCeiling⟩ := lt_iff_not_le.mp hmoney
    exact ⟨hactor.trans hgrantee, ⟨t.expiresAt, hexpires, hfinite⟩, hnow, ⟨hused, hmax ▸ hmaxSteps⟩, hspent,
      hceiling ▸ hbudgetCeiling⟩
  · rintro ⟨hactor, ⟨expiresAt, hsome, hfinite⟩, hnow, ⟨hused, hmaxSteps⟩, hspent, hbudgetCeiling⟩
    obtain rfl : t.expiresAt = expiresAt := Option.some.inj (hexpires.symm.trans hsome)
    refine ⟨hactor.trans hgrantee.symm, hscope, hfinite, ?_, ?_, ?_⟩
    · exact le_iff_not_lt.mpr ⟨hexpired, hnow, not_nan_of_finite hfinite⟩
    · exact lt_iff_not_le.mpr ⟨hsteps, hused, hmax ▸ hmaxSteps⟩
    · exact lt_iff_not_le.mpr ⟨hbudget, hspent, hceiling ▸ hbudgetCeiling⟩

/-- The text of an id tells the expiry, and the two names run together. -/
lemma tokenText_iff {grantor grantee grantor' grantee' : JsString} :
    tokenText grantor grantee a = tokenText grantor' grantee' b ↔
      a = b ∧ grantor ++ bar :: grantee = grantor' ++ bar :: grantee' := by
  have hbar : ∀ n : Number, bar ∉ numberUnits n :=
    numberUnits_other (c := '|') (by decide) (by decide) (by decide) (by decide)
  constructor
  · intro h
    obtain ⟨hnames, htime⟩ := line_cancel_last (hbar a) (hbar b) h
    exact ⟨numberUnits_injective htime, List.append_cancel_left hnames⟩
  · rintro ⟨rfl, hnames⟩
    rw [tokenText, tokenText, hnames]

/-- What the leash of a token holds, and what its id tells. -/
theorem delegation_leash_iff (m : Mint) :
    (∀ t act stamp, mintDelegation m = .ok t → agentInvoke (some t) act = .ok stamp → (Leashed t act ↔ Firm m act)) ∧
    ∀ m' t t', mintDelegation m = .ok t → mintDelegation m' = .ok t' →
      Set.InjOn hash53 {tokenText m.grantor m.grantee t.expiresAt, tokenText m'.grantor m'.grantee t'.expiresAt} →
      ((¬ SameMint m m' → t.tokenId ≠ t'.tokenId) ↔ SameMint m m' ∨ Distinct m m') := by
  refine ⟨fun t act stamp hmint hact => leashed_iff hmint hact, fun m' t t' hmint hmint' hinj => ?_⟩
  obtain ⟨-, -, -, -, hexpires, hid⟩ := mint_ok hmint
  obtain ⟨-, -, -, -, hexpires', hid'⟩ := mint_ok hmint'
  have hids : t.tokenId = t'.tokenId ↔ ¬ Distinct m m' := by
    rw [hid, hid', hinj.eq_iff (by simp) (by simp), tokenText_iff, Distinct, hexpires, hexpires']
    simp
  rw [ne_eq, hids]
  tauto

def workMint : Mint := ⟨ofText "alice", ofText "agent.x", [ofText "ns.work"], .ofInt 1000, .ofInt 10, some (.ofInt 999999), true⟩

def privateMint : Mint := { workMint with scope := [ofText "ns.personal"] }

def malloryAct : AgentAct := ⟨ofText "mallory", [], ofText "ns.work", .zero, .zero, .ofInt 1000⟩

/-- Another agent acts under the token, and a second token has its id. -/
theorem leash_slips :
    (¬ ∀ m t act stamp, mintDelegation m = .ok t → agentInvoke (some t) act = .ok stamp → Leashed t act) ∧
    ¬ ∀ m m' t t', mintDelegation m = .ok t → mintDelegation m' = .ok t' → ¬ SameMint m m' → t.tokenId ≠ t'.tokenId := by
  have hceiling : (Number.ofInt 1000).le .zero = false := le_ofInt (k := 1000) (l := 0)
  have hmax : (Number.ofInt 10).le .zero = false := le_ofInt (k := 10) (l := 0)
  have hmint : ∀ scope : List JsString, scope ≠ [] → ∃ t, mintDelegation { workMint with scope := scope } = .ok t := by
    intro scope hscope
    have hunbounded : ¬ ((Number.ofInt 1000).le .zero = true ∨ (Number.ofInt 10).le .zero = true ∨ scope = []) := by
      simp [hceiling, hmax, hscope]
    exact ⟨_, if_neg hunbounded⟩
  obtain ⟨t, ht⟩ := hmint [ofText "ns.work"] (by simp)
  obtain ⟨t', ht'⟩ := hmint [ofText "ns.personal"] (by simp)
  obtain ⟨hgrantee, hscope, hbudget, hsteps, hexpires, hid⟩ := mint_ok ht
  obtain ⟨-, -, -, -, hexpires', hid'⟩ := mint_ok ht'
  constructor
  · intro h
    have hnow : t.expiresAt.lt malloryAct.nowMs = false := by
      rw [← Option.some.inj hexpires]
      exact lt_ofInt (k := 999999) (l := 1000)
    have hact : agentInvoke (some t) malloryAct = .ok ⟨malloryAct.actor, t.tokenId⟩ := by
      unfold agentInvoke
      dsimp only
      rw [if_neg, if_neg, if_neg, if_neg]
      · rfl
      · rw [hbudget]
        exact Bool.eq_false_iff.mp hceiling
      · rw [hsteps]
        exact Bool.eq_false_iff.mp hmax
      · simpa using hnow
      · rw [hscope]
        simp [malloryAct]
    have hactor := (h _ t malloryAct _ ht hact).grantee
    rw [hgrantee] at hactor
    exact absurd hactor (by decide)
  · intro h
    refine h _ _ t t' ht ht' ?_ ?_
    · intro hsame
      exact absurd hsame.2.2.1 (by decide)
    · rw [hid, hid', ← Option.some.inj hexpires, ← Option.some.inj hexpires']

end Leashes

end VivimOmega.Gates

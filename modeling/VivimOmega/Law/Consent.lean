import VivimOmega.Law.Policy
import VivimOmega.Library.OrderedMap

/-! The consent table, and the policy resolved with it. -/

namespace VivimOmega.Law

open Library Library.Json

section Ids

def hashStep (h : UInt32 × UInt32) (i : ℕ) (c : UInt16) : UInt32 × UInt32 :=
  ((h.1 ^^^ c.toUInt32) * 0x01000193, (h.2 ^^^ UInt32.ofNat (i + c.toNat + 1)) * 0x85ebca6b)

def stableHashFrom (i : ℕ) (h : UInt32 × UInt32) : JsString → UInt32 × UInt32
  | [] => h
  | c :: rest => stableHashFrom (i + 1) (hashStep h i c) rest

def hexUnit (n : ℕ) : UInt16 := UInt16.ofNat (if n < 10 then 0x30 + n else 0x57 + n)

/-- `toString(16).padStart(8, "0")` -/
def hex8 (h : UInt32) : JsString := (List.range 8).reverse.map fun i => hexUnit (h.toNat / 16 ^ i % 16)

def stableHash (s : JsString) : JsString :=
  let (h1, h2) := stableHashFrom 0 (0x811c9dc5, 0x01000193) s
  hex8 h1 ++ hex8 h2

def consentIdFor (principal op : JsString) : JsString :=
  ofText "consent_" ++ stableHash (principal ++ 0 :: op)

def isHexUnit (u : UInt16) : Bool := (0x30 ≤ u && u ≤ 0x39) || (0x61 ≤ u && u ≤ 0x66)

/-- `CONSENT_ID_RE` -/
def isConsentId (s : JsString) : Bool :=
  (ofText "consent_").isPrefixOf s && s.length = 24 && (s.drop 8).all isHexUnit

lemma isHexUnit_hexUnit {n : ℕ} (h : n < 16) : isHexUnit (hexUnit n) = true := by
  interval_cases n <;> decide

/-- The id that a refusal names can be granted. -/
lemma isConsentId_consentIdFor (principal op : JsString) : isConsentId (consentIdFor principal op) = true := by
  have hlength : ∀ h, (hex8 h).length = 8 := fun h => by simp [hex8]
  have hdigits : ∀ h, (hex8 h).all isHexUnit = true := by
    intro h
    refine List.all_eq_true.mpr fun u hu => ?_
    obtain ⟨i, _, rfl⟩ := List.mem_map.mp hu
    exact isHexUnit_hexUnit (Nat.mod_lt _ (by decide))
  have hprefix : (ofText "consent_").length = 8 := by decide
  have hdrop : ∀ t, (ofText "consent_" ++ t).drop 8 = t := fun t => by
    rw [← hprefix, List.drop_left]
  rw [isConsentId, consentIdFor, hdrop]
  simp [stableHash, hlength, hdigits, hprefix, List.isPrefixOf_iff_prefix]

end Ids

section Table

structure ConsentRecord where
  consentId : JsString
  principal : Option JsString
  scope : Option JsString
  generation : ℕ
  active : Bool

structure ConsentTable where
  grants : OrderedMap JsString ConsentRecord
  gen : ℕ

namespace ConsentTable

def empty : ConsentTable := ⟨.empty, 0⟩

def grant (t : ConsentTable) (consentId : JsString) (principal scope : Option JsString) :
    Except String ConsentTable :=
  if isConsentId consentId then
    return ⟨t.grants.set consentId ⟨consentId, principal, scope, t.gen + 1, true⟩, t.gen + 1⟩
  else throw ("consent.grant: malformed consentId '" ++ toText consentId ++ "' (expected consent_<16 hex>)")

def revoke (t : ConsentTable) (consentId : JsString) : Bool × ConsentTable :=
  match t.grants.get? consentId with
  | some rec =>
    if rec.active then (true, ⟨t.grants.set consentId { rec with active := false }, t.gen + 1⟩)
    else (false, t)
  | none => (false, t)

/-- What the record of an id says to a principal and an operation. -/
def matching (found : Option ConsentRecord) (principal op : JsString) : Option ConsentRecord :=
  found.filter fun rec =>
    rec.active && decide (rec.principal.all (· = principal)) && decide (rec.scope.all (· = op))

def hasMatchingGrant (t : ConsentTable) (principal op : JsString) : Option ConsentRecord :=
  matching (t.grants.get? (consentIdFor principal op)) principal op

variable {t t' : ConsentTable} {consentId : JsString} {principal scope : Option JsString}

lemma hasMatchingGrant_grant (h : t.grant consentId principal scope = .ok t') (p op : JsString) :
    (t'.hasMatchingGrant p op).isSome ↔ if consentIdFor p op = consentId then
      principal.all (· = p) ∧ scope.all (· = op) else (t.hasMatchingGrant p op).isSome := by
  unfold grant at h
  split_ifs at h with hid
  cases h
  rw [hasMatchingGrant, OrderedMap.get?_set]
  split_ifs with hsame
  · simp [matching, Option.filter]
  · rfl

lemma grant_ok (hid : isConsentId consentId = true) : ∃ t', t.grant consentId principal scope = .ok t' := by
  rw [grant, if_pos hid]
  exact ⟨_, rfl⟩

lemma hasMatchingGrant_revoke (t : ConsentTable) (consentId p op : JsString) :
    ((t.revoke consentId).2.hasMatchingGrant p op).isSome ↔
      consentIdFor p op ≠ consentId ∧ (t.hasMatchingGrant p op).isSome := by
  have hnone : ∀ found : Option ConsentRecord, (∀ rec, found = some rec → rec.active = false) →
      matching found p op = none := by
    intro found hfound
    refine Option.filter_eq_none_iff.mpr fun rec hrec => ?_
    simp [hfound rec hrec]
  by_cases hid : consentIdFor p op = consentId
  · simp only [hid, ne_eq, not_true_eq_false, false_and, iff_false, Bool.not_eq_true,
      Option.isSome_eq_false_iff, Option.isNone_iff_eq_none]
    rw [hasMatchingGrant, hid]
    refine hnone _ fun rec hrec => ?_
    unfold revoke at hrec
    split at hrec
    · next old hold =>
      split_ifs at hrec with hactive
      · rw [OrderedMap.get?_set_self] at hrec
        cases hrec
        rfl
      · cases hold.symm.trans hrec
        exact Bool.not_eq_true _ ▸ hactive
    · next habsent => cases habsent.symm.trans hrec
  · have hsame : (t.revoke consentId).2.grants.get? (consentIdFor p op) = t.grants.get? (consentIdFor p op) := by
      unfold revoke
      split
      · split_ifs
        · exact OrderedMap.get?_set_of_ne _ _ hid
        · rfl
      · rfl
    rw [hasMatchingGrant, hsame]
    exact ⟨fun h => ⟨hid, h⟩, And.right⟩

end ConsentTable

end Table

section Resolver

structure Resolved where
  decision : Value
  reason : Value
  journal : Value
  consentId : Option JsString

/-- The policy's action, with a consent applied where the action asks for one. -/
def resolve (doc : Value) (consents : ConsentTable) (principal op : JsString) :
    Except String Resolved := do
  let action ← evalPolicy doc principal op
  let decision ← property action "decision"
  let reason := optionalProperty action "reason"
  let journal := optionalProperty action "journal"
  if isText decision "require-consent" then
    match consents.hasMatchingGrant principal op with
    | some grant => do
      let text ← toJsString reason
      return ⟨jsText "allow", .string (text ++ ofText " — consent " ++ grant.consentId ++
        ofText (" active (gen " ++ toString grant.generation ++ ")")), journal, none⟩
    | none => return ⟨jsText "require-consent", reason, journal, some (consentIdFor principal op)⟩
  else return ⟨decision, reason, journal, none⟩

end Resolver

end VivimOmega.Law

import VivimOmega.Vault.Sql

/-! Payload validation: names that keep the fields of a changelog row apart, integers, refs. -/

namespace VivimOmega.Vault

open Library.Json

/-- The separator of the hashed fields, and what ends SQLite text. -/
def forbidden (u : UInt16) : Bool := u.toNat = 0 || u.toNat = 124

def IsName (s : String) : Prop :=
  ofText s ≠ [] ∧ (ofText s).length ≤ 256 ∧ (ofText s).any forbidden = false

instance (s : String) : Decidable (IsName s) := inferInstanceAs (Decidable (_ ∧ _ ∧ _))

abbrev Name := {s : String // IsName s}

lemma bar_not_mem {s : String} (h : IsName s) : '|' ∉ s.toList := by
  intro hmem
  have hunit : (124 : UInt16) ∈ ofText s := List.mem_flatMap.mpr ⟨'|', hmem, by decide⟩
  have hclean := List.any_eq_false.mp h.2.2 124 hunit
  exact hclean (by decide)

/-- A code unit as it stands in the text: a lone surrogate has become the replacement character. -/
def Repaired (u w : UInt16) : Prop := w = u ∨ IsSurrogate u ∧ w = 0xFFFD

lemma repaired_unit (u : UInt16) :
    ∃ w, units (if IsSurrogate u then '\uFFFD' else unitChar u) = [w] ∧ Repaired u w := by
  split_ifs with hu
  · exact ⟨0xFFFD, by decide, Or.inr ⟨hu, rfl⟩⟩
  · exact ⟨u, units_unitChar hu, Or.inl rfl⟩

lemma repaired (s : JsString) : List.Forall₂ Repaired s (ofText (toText s)) := by
  rw [ofText, toText, String.toList_ofList]
  induction s using wellFormed.induct with
  | case1 => exact .nil
  | case2 u =>
    obtain ⟨w, hw, hr⟩ := repaired_unit u
    rw [wellFormed, List.flatMap_singleton, hw]
    exact .cons hr .nil
  | case3 u v rest hpair ih =>
    rw [wellFormed, if_pos hpair, List.flatMap_cons, units_pairChar hpair.1 hpair.2]
    exact .cons (Or.inl rfl) (.cons (Or.inl rfl) ih)
  | case4 u v rest hpair ih =>
    obtain ⟨w, hw, hr⟩ := repaired_unit u
    rw [wellFormed, if_neg hpair, List.flatMap_cons, hw]
    exact .cons hr ih

lemma forbidden_repaired {u w : UInt16} (h : Repaired u w) : forbidden w = forbidden u := by
  rcases h with rfl | ⟨hs, rfl⟩
  · rfl
  · have hlow : 0xD800 ≤ u.toNat := hs.1
    have hzero : ¬ u.toNat = 0 := by omega
    have hbar : ¬ u.toNat = 124 := by omega
    simp [forbidden, hzero, hbar]

lemma any_repaired {s w : JsString} (h : List.Forall₂ Repaired s w) :
    w.any forbidden = s.any forbidden := by
  induction h with
  | nil => rfl
  | cons h _ ih => rw [List.any_cons, List.any_cons, forbidden_repaired h, ih]

/-- A string passes as a name exactly when its text does. -/
lemma isName_toText {s : JsString} :
    IsName (toText s) ↔ s ≠ [] ∧ s.length ≤ 256 ∧ s.any forbidden = false := by
  have hr := repaired s
  have hlen := hr.length_eq
  rw [IsName, any_repaired hr, ← hlen, ne_eq, ← List.length_eq_zero_iff, ← hlen, List.length_eq_zero_iff]

def requireName (op field : String) (value : Value) : Except String Name :=
  match value with
  | .string s =>
    if hne : s = [] then throw (op ++ ": " ++ field ++ " must be a non-empty string")
    else if hlen : s.length > 256 then throw (op ++ ": " ++ field ++ " exceeds 256 chars")
    else if h : s.any forbidden = false then
      return ⟨toText s, isName_toText.mpr ⟨hne, not_lt.mp hlen, h⟩⟩
    else throw (op ++ ": " ++ field ++ " must not contain '|' or NUL")
  | _ => throw (op ++ ": " ++ field ++ " must be a non-empty string")

/-- A string is accepted exactly when its text is a name. -/
lemma requireName_ok {op field : String} {s : JsString} (h : IsName (toText s)) :
    requireName op field (.string s) = .ok ⟨toText s, h⟩ := by
  obtain ⟨hne, hlen, hclean⟩ := isName_toText.mp h
  simp only [requireName, hne, not_lt.mpr hlen, hclean, dif_pos, dif_neg, not_false_eq_true]
  rfl

lemma requireName_error (op field : String) {s : JsString} (h : ¬ IsName (toText s)) :
    ∃ e, requireName op field (.string s) = .error e := by
  cases hname : requireName op field (.string s) with
  | error e => exact ⟨e, rfl⟩
  | ok n =>
    rw [requireName] at hname
    split_ifs at hname with hne hlen hclean
    exact absurd (isName_toText.mpr ⟨hne, not_lt.mp hlen, hclean⟩) h

def requireObject (op : String) (payload : Value) : Except String Value :=
  match payload with
  | .object members => return .object members
  | _ => throw (op ++ ": payload must be an object")

def isNullish : Value → Bool
  | .undefined => true
  | .null => true
  | _ => false

def requireInt (op field : String) (value : Value) (min : ℤ) : Except String {n : ℤ // min ≤ n} :=
  if isNullish value then throw (op ++ ": " ++ field ++ " is required")
  else
    let refusal := op ++ ": " ++ field ++ " must be an integer >= " ++ toString min
    match value with
    | .number n =>
      match n.toInt? with
      | some k => if h : min ≤ k then return ⟨k, h⟩ else throw refusal
      | none => throw refusal
    | _ => throw refusal

def optionalInt (op field : String) (value : Value) (min : ℤ) :
    Except String (Option {n : ℤ // min ≤ n}) :=
  if isNullish value then return none
  else do
    let n ← requireInt op field value min
    return some n

def requireRef (op : String) (r : Value × ℕ) : Except String Ref := do
  let place := "refs[" ++ toString r.2 ++ "]"
  let ref ← requireObject (op ++ " " ++ place) r.1
  let ns ← requireName op (place ++ ".ns") (optionalProperty ref "ns")
  let id ← requireName op (place ++ ".id") (optionalProperty ref "id")
  let rev ← requireInt (op ++ " " ++ place) "rev" (optionalProperty ref "rev") 1
  return ⟨ns.1, id.1, rev.1⟩

def requireRefs (op : String) (refs : Value) : Except String (List Ref) :=
  if isNullish refs then return []
  else
    match refs with
    | .array items => items.zipIdx.mapM (requireRef op)
    | _ => throw (op ++ ": refs must be an array of \x7bns, id, rev\x7d")

end VivimOmega.Vault

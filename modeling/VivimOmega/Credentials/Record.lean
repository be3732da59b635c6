import VivimOmega.Library.Json.Reading
import VivimOmega.Nlcl.Text

/-! The credential spine keeps references: what `credential.put@1` refuses, and what it appends to the vault. -/

namespace VivimOmega.Credentials

open Library Library.Json Value

section Put

def MATERIAL_FIELDS : List String := ["value", "secret", "key", "password", "token", "apikey", "api_key", "credential"]

/-- `name in object` -/
def hasField (members : List (JsString × Value)) (name : String) : Bool := members.any fun m => m.1 = ofText name

structure CredentialRecord where
  credentialId : JsString
  createdAt : Number
  metadata : Option (List (JsString × Value))

def requireCredentialId (v : Value) : Except String JsString :=
  match v with
  | .string [] => throw "credential: credentialId must be a non-empty string"
  | .string s =>
    if s.contains 58 then throw "credential: credentialId must not contain ':' (vault id grammar)"
    else if 128 < s.length then throw "credential: credentialId exceeds 128 chars"
    else return s
  | _ => throw "credential: credentialId must be a non-empty string"

def isTrue : Value → Bool
  | .bool b => b
  | _ => false

def payloadRefusal (f : String) : String :=
  "credential.put@1: payload field \"" ++ f ++ "\" is secret-material-shaped — the spine stores " ++
    "REFERENCES only (fail-closed; SURFACES.md credential law 1)"

def metaRefusal (f : String) : String :=
  "credential.put@1: meta." ++ f ++ " is secret-material-shaped — the spine stores REFERENCES only"

/-- Refuses an object that has one of the material fields. -/
def refuseMaterial (refusal : String → String) (members : List (JsString × Value)) : Except String Unit :=
  match MATERIAL_FIELDS.find? (hasField members) with
  | some f => throw (refusal f)
  | none => return ()

/-- The clone of `meta`, where one is given. -/
def asMeta : Value → Except String (Option (List (JsString × Value)))
  | .undefined => return none
  | .object members => do
    refuseMaterial metaRefusal members
    return some members
  | _ => throw "credential.put@1: meta must be an object when provided"

def asCredentialRecord (payload : Value) (now : Number) : Except String CredentialRecord :=
  match payload with
  | .object members => do
    let credentialId ← requireCredentialId (optionalProperty payload "credentialId")
    require (isTrue (optionalProperty payload "sim"))
      ("credential.put@1: sim must be true — live secrets never enter the sandbox " ++
        "(docs/SURFACES.md credential law 3; the live tier is owner-machine only)")
    refuseMaterial payloadRefusal members
    let metadata ← asMeta (optionalProperty payload "meta")
    return ⟨credentialId, now, metadata⟩
  | _ => throw "credential.put@1: payload must be an object \x7bcredentialId, sim: true, meta?\x7d"

def recordValue (r : CredentialRecord) : Value :=
  .object ([(ofText "credentialId", .string r.credentialId), (ofText "kind", jsText "sim-synthetic"),
    (ofText "sim", .bool true), (ofText "createdAt", .number r.createdAt)] ++
      r.metadata.toList.map fun members => (ofText "meta", .object members))

def credentialVaultId (credentialId : JsString) : Except String JsString := do
  let id ← requireCredentialId (.string credentialId)
  return ofText "credential:" ++ id

/-- A call of `vault.append@1`. -/
structure VaultAppend where
  ns : String
  id : JsString
  data : Value
  type : String

/-- What `credential.put@1` asks the vault to append, or why it asks for nothing. -/
def credentialPut (payload : Value) (now : Number) : Except String VaultAppend := do
  let record ← asCredentialRecord payload now
  let id ← credentialVaultId record.credentialId
  return ⟨"credentials", id, recordValue record, "credential"⟩

end Put

section Material

variable (lowerCase : JsString → JsString)

/-- A name of material, whatever its letter case. -/
def isMaterial (name : JsString) : Bool := MATERIAL_FIELDS.any fun f => lowerCase name = ofText f

mutual

/-- Whether a member at some depth has a name of material. -/
def hasMaterial : Value → Bool
  | .object members => membersHaveMaterial members
  | .array items => itemsHaveMaterial items
  | _ => false

def itemsHaveMaterial : List Value → Bool
  | [] => false
  | v :: rest => hasMaterial v || itemsHaveMaterial rest

def membersHaveMaterial : List (JsString × Value) → Bool
  | [] => false
  | (name, v) :: rest => isMaterial lowerCase name || hasMaterial v || membersHaveMaterial rest

end

/-- Material that the names of an object's own members do not show as they are written. -/
def hidden (members : List (JsString × Value)) : Bool :=
  members.any fun m =>
    (isMaterial lowerCase m.1 && !(MATERIAL_FIELDS.any fun f => m.1 = ofText f)) || hasMaterial lowerCase m.2

/-- Nothing that is appended has material below its `meta`, and what has it is refused. -/
def StoresNoMaterial (payload : Value) : Prop :=
  (∀ now append, credentialPut payload now = .ok append →
    hasMaterial lowerCase (optionalProperty append.data "meta") = false) ∧
  (hasMaterial lowerCase (optionalProperty payload "meta") = true → ∀ now, ∃ err, credentialPut payload now = .error err) ∧
    ((∃ members, payload = .object members ∧ ∃ f ∈ MATERIAL_FIELDS, hasField members f = true) →
      ∀ now, ∃ err, credentialPut payload now = .error err)

/-- The checks that do not look at names of material. -/
def Wellformed (payload : Value) (members data : List (JsString × Value)) : Prop :=
  payload = .object members ∧ (∃ id, requireCredentialId (optionalProperty payload "credentialId") = .ok id) ∧
    isTrue (optionalProperty payload "sim") = true ∧ optionalProperty payload "meta" = .object data

variable {lowerCase} {payload : Value} {members data : List (JsString × Value)}

lemma membersHaveMaterial_iff : membersHaveMaterial lowerCase members = true ↔
    ∃ m ∈ members, isMaterial lowerCase m.1 = true ∨ hasMaterial lowerCase m.2 = true := by
  induction members with
  | nil => simp [membersHaveMaterial]
  | cons m rest ih => simp [membersHaveMaterial, ih, or_assoc]

lemma refuseMaterial_ok {refusal : String → String} {u : Unit} :
    refuseMaterial refusal members = .ok u ↔ ∀ f ∈ MATERIAL_FIELDS, hasField members f = false := by
  unfold refuseMaterial
  cases hfind : MATERIAL_FIELDS.find? (hasField members) with
  | none =>
    have hnone := List.find?_eq_none.mp hfind
    constructor
    · intro _ f hf
      simpa using hnone f hf
    · intro _
      rfl
  | some f =>
    have hf := List.find?_some hfind
    constructor
    · intro h
      cases h
    · intro h
      rw [h f (List.mem_of_find?_eq_some hfind)] at hf
      cases hf

lemma credentialVaultId_ok {id : JsString} {v : Value} (h : requireCredentialId v = .ok id) :
    credentialVaultId id = .ok (ofText "credential:" ++ id) := by
  have hid : requireCredentialId (.string id) = .ok id := by
    unfold requireCredentialId at h
    split at h
    · cases h
    · next s hne =>
      split_ifs at h with hcolon hlong
      cases h
      cases id with
      | nil => exact absurd rfl hne
      | cons u rest => simp only [requireCredentialId, if_neg hcolon, if_neg hlong]; rfl
    · cases h
  rw [credentialVaultId, hid]
  rfl

lemma meta_recordValue (r : CredentialRecord) : optionalProperty (recordValue r) "meta" =
    match r.metadata with
    | none => .undefined
    | some members => .object members := by
  obtain ⟨id, createdAt, metadata⟩ := r
  cases metadata <;> rfl

/-- What is appended is a well-formed payload, and no field of it or of its `meta` is material as it is written. -/
lemma credentialPut_ok {now : Number} {append : VaultAppend} (h : credentialPut payload now = .ok append) :
    optionalProperty append.data "meta" = optionalProperty payload "meta" ∧
      ∃ members, payload = .object members ∧ (∀ f ∈ MATERIAL_FIELDS, hasField members f = false) ∧
        (optionalProperty payload "meta" = .undefined ∨ ∃ data, Wellformed payload members data ∧
          ∀ f ∈ MATERIAL_FIELDS, hasField data f = false) := by
  obtain ⟨record, hrecord, h⟩ := bind_eq_ok h
  obtain ⟨id, _, h⟩ := bind_eq_ok h
  cases h
  unfold asCredentialRecord at hrecord
  split at hrecord
  · next members =>
    obtain ⟨credentialId, hid, hrecord⟩ := bind_eq_ok hrecord
    obtain ⟨u, hsim, hrecord⟩ := bind_eq_ok hrecord
    obtain ⟨u, hfields, hrecord⟩ := bind_eq_ok hrecord
    obtain ⟨metadata, hmeta, hrecord⟩ := bind_eq_ok hrecord
    cases hrecord
    rw [meta_recordValue]
    refine ⟨?_, members, rfl, refuseMaterial_ok.mp hfields, ?_⟩
    · cases hgiven : optionalProperty (.object members) "meta" with
      | undefined =>
        rw [hgiven] at hmeta
        cases hmeta
        rfl
      | object data =>
        rw [hgiven] at hmeta
        obtain ⟨_, _, hmeta⟩ := bind_eq_ok hmeta
        cases hmeta
        rfl
      | _ =>
        rw [hgiven] at hmeta
        cases hmeta
    · cases hgiven : optionalProperty (.object members) "meta" with
      | undefined => exact .inl rfl
      | object data =>
        rw [hgiven] at hmeta
        obtain ⟨_, hdata, _⟩ := bind_eq_ok hmeta
        exact .inr ⟨data, ⟨rfl, ⟨credentialId, hid⟩, require_ok hsim, hgiven⟩, refuseMaterial_ok.mp hdata⟩
      | _ =>
        rw [hgiven] at hmeta
        cases hmeta
  · cases hrecord

lemma Wellformed.put (h : Wellformed payload members data) (now : Number)
    (hmembers : ∀ f ∈ MATERIAL_FIELDS, hasField members f = false)
    (hdata : ∀ f ∈ MATERIAL_FIELDS, hasField data f = false) : ∃ append, credentialPut payload now = .ok append := by
  obtain ⟨rfl, ⟨id, hid⟩, hsim, hmeta⟩ := h
  refine ⟨⟨"credentials", ofText "credential:" ++ id, recordValue ⟨id, now, some data⟩, "credential"⟩, ?_⟩
  have hfields : refuseMaterial payloadRefusal members = .ok () := refuseMaterial_ok.mpr hmembers
  have hnames : refuseMaterial metaRefusal data = .ok () := refuseMaterial_ok.mpr hdata
  have hrecord : asCredentialRecord (.object members) now = .ok ⟨id, now, some data⟩ := by
    rw [asCredentialRecord, hid, ok_bind, hsim, require, if_pos rfl, hfields, hmeta, asMeta, hnames]
    rfl
  rw [credentialPut, hrecord, ok_bind, credentialVaultId_ok hid]
  rfl

lemma hasMaterial_hidden (h : hidden lowerCase members = true) : membersHaveMaterial lowerCase members = true := by
  obtain ⟨m, hm, hhidden⟩ := List.any_eq_true.mp h
  refine membersHaveMaterial_iff.mpr ⟨m, hm, ?_⟩
  obtain hname | hvalue := Bool.or_eq_true_iff.mp hhidden
  · exact .inl (Bool.and_eq_true_iff.mp hname).1
  · exact .inr hvalue

/-- Material is hidden, or an own name shows it as it is written. -/
lemma hidden_or_named (h : membersHaveMaterial lowerCase members = true) :
    hidden lowerCase members = true ∨ ∃ f ∈ MATERIAL_FIELDS, hasField members f = true := by
  obtain ⟨m, hm, hmaterial⟩ := membersHaveMaterial_iff.mp h
  by_cases hnamed : (MATERIAL_FIELDS.any fun f => m.1 = ofText f) = true
  · obtain ⟨f, hf, heq⟩ := List.any_eq_true.mp hnamed
    exact .inr ⟨f, hf, List.any_eq_true.mpr ⟨m, hm, heq⟩⟩
  · refine .inl (List.any_eq_true.mpr ⟨m, hm, ?_⟩)
    rw [Bool.or_eq_true_iff, Bool.and_eq_true_iff]
    obtain hname | hvalue := hmaterial
    · exact .inl ⟨hname, by simpa using hnamed⟩
    · exact .inr hvalue

/-- No material is stored exactly where it is not hidden: below the own members of `meta`, or behind the letter case
of their names. -/
theorem stores_no_material_iff (lowerCase : JsString → JsString) (payload : Value) :
    StoresNoMaterial lowerCase payload ↔ ∀ members data, Wellformed payload members data →
      (∃ f ∈ MATERIAL_FIELDS, hasField members f = true ∨ hasField data f = true) ∨ hidden lowerCase data = false := by
  constructor
  · rintro ⟨hstored, _, _⟩ members data hform
    by_cases hnamed : ∃ f ∈ MATERIAL_FIELDS, hasField members f = true ∨ hasField data f = true
    · exact .inl hnamed
    · right
      push Not at hnamed
      obtain ⟨append, hput⟩ := hform.put .zero (fun f hf => by simpa using (hnamed f hf).1)
        fun f hf => by simpa using (hnamed f hf).2
      have hclean := hstored _ _ hput
      rw [(credentialPut_ok hput).1, hform.2.2.2, hasMaterial] at hclean
      by_contra hhidden
      rw [hasMaterial_hidden (by simpa using hhidden)] at hclean
      cases hclean
  · intro h
    have hclean : ∀ now append, credentialPut payload now = .ok append →
        hasMaterial lowerCase (optionalProperty payload "meta") = false := by
      intro now append hput
      obtain ⟨_, members, _, hmembers, hmeta⟩ := credentialPut_ok hput
      obtain hnone | ⟨data, hform, hdata⟩ := hmeta
      · rw [hnone, hasMaterial]
        all_goals simp
      · rw [hform.2.2.2, hasMaterial]
        by_contra hmaterial
        have hdataless : ¬ ∃ f ∈ MATERIAL_FIELDS, hasField data f = true := by
          rintro ⟨f, hf, hfield⟩
          rw [hdata f hf] at hfield
          cases hfield
        obtain hhidden | hnamed := hidden_or_named (by simpa using hmaterial)
        · obtain ⟨f, hf, hfield⟩ | hnot := h members data hform
          · rw [hmembers f hf, hdata f hf] at hfield
            simp at hfield
          · rw [hhidden] at hnot
            cases hnot
        · exact hdataless hnamed
    refine ⟨fun now append hput => ?_, fun hmaterial now => ?_, ?_⟩
    · rw [(credentialPut_ok hput).1]
      exact hclean now append hput
    · cases hput : credentialPut payload now with
      | error err => exact ⟨err, rfl⟩
      | ok append =>
        rw [hclean now append hput] at hmaterial
        cases hmaterial
    · rintro ⟨members, rfl, f, hf, hfield⟩ now
      cases hput : credentialPut (.object members) now with
      | error err => exact ⟨err, rfl⟩
      | ok append =>
        obtain ⟨_, members', heq, hmembers, _⟩ := credentialPut_ok hput
        cases heq
        rw [hmembers f hf] at hfield
        cases hfield

/-- A token below a member of `meta` is stored. -/
theorem nested_token_stored : ¬ StoresNoMaterial (List.map Nlcl.asciiLower) (.object
    [(ofText "credentialId", jsText "c1"), (ofText "sim", .bool true),
      (ofText "meta", .object [(ofText "auth", .object [(ofText "token", jsText "s3cret")])])]) := by
  rw [stores_no_material_iff]
  intro h
  obtain hnamed | hhidden := h _ _ ⟨rfl, ⟨ofText "c1", rfl⟩, rfl, rfl⟩
  · revert hnamed
    decide
  · revert hhidden
    decide

end Material

end VivimOmega.Credentials

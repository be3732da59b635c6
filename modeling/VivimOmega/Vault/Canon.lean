import VivimOmega.Host.Canon

/-! Canonical JSON and the hashes of the vault's on-disk format. -/

namespace VivimOmega.Vault

open Library.Json Library.Sha256

def genesisHash : String := String.ofList (List.replicate 64 '0')

def canonicalJson (value : Value) : Except String String :=
  (canonicalText (fun v => "canonicalJson: unsupported value " ++ v.typeOf ++ " (" ++ v.shown ++ ")")
    value).map String.ofList

def cidOf (data : Value) : Except String String := do
  let text ← canonicalJson data
  return sha256Text text

/-- The fields of a changelog row that its hash covers, before the hash of the row before. -/
structure LinkFields where
  seq : ℤ
  causationId : String
  ns : String
  id : String
  rev : ℤ
  cid : String
  deriving DecidableEq

def linkText (f : LinkFields) (prevHash : String) : String :=
  "|".intercalate [toString f.seq, f.causationId, f.ns, f.id, toString f.rev, f.cid, prevHash]

def entryHash (f : LinkFields) (prevHash : String) : String := sha256Text (linkText f prevHash)

/-- The text indexed for search: raw string data, or the canonical JSON of anything else. -/
def bodyText : Value → Except String String
  | .string s => return toText s
  | data => canonicalJson data

lemma canonicalJson_eq_iff {u v : Value} (hu : IsJson u) (hv : IsJson v) :
    Host.canonicalJson u = Host.canonicalJson v ↔ Agrees u v := by
  rw [← canonicalText_eq_iff (fun v => "canonicalJson: unsupported value " ++ v.shown) hu hv]
  unfold Host.canonicalJson
  rw [hu.canonicalText, hv.canonicalText]
  simp only [Except.map, Except.ok.injEq, String.ofList_inj]

/-- Equal texts for equal values and no others, texts that parse back, and one text of the two
implementations. -/
theorem canonicalJson_canonical_form :
    (∀ u v : JsonValue, Host.canonicalJson u.1 = Host.canonicalJson v.1 ↔ Agrees u.1 v.1) ∧
      (∀ v : JsonValue, ∃ text w, Host.canonicalJson v.1 = .ok text ∧
        parse text.toList = some w ∧ IsJson w ∧ Agrees v.1 w) ∧
      ∀ v : Value, (Host.canonicalJson v).toOption = (canonicalJson v).toOption := by
  refine ⟨fun u v => canonicalJson_eq_iff u.2 v.2, fun v => ?_, fun v => ?_⟩
  · refine ⟨String.ofList (normal v.1).render, normal v.1, ?_, ?_, v.2.plain.isJson,
      v.2.agrees_normal⟩
    · rw [Host.canonicalJson, v.2.canonicalText]
      rfl
    · rw [String.toList_ofList]
      exact parse_render v.2.plain
  · rw [Host.canonicalJson, canonicalJson, toOption_map, toOption_map]
    exact congrArg _ (canonicalText_toOption _ _ v)

end VivimOmega.Vault

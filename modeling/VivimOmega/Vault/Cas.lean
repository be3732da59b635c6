import VivimOmega.Vault.Sql

/-! The content-addressed store: blobs under the cid of their canonical text. -/

namespace VivimOmega.Vault

open Library Library.Json Library.Sha256

def wellFormedCid (cid : String) : Bool := IsDigest cid.toList

def casPath (cid : String) : Except String String :=
  if wellFormedCid cid then return cid else throw ("cas: malformed cid '" ++ cid ++ "'")

/-- Stores the canonical text; a blob that is there is not written again. -/
def casPut (cas : OrderedMap String String) (data : Value) (fault : Option String) :
    Except String (String × OrderedMap String String) := do
  let text ← canonicalJson data
  let cid ← cidOf data
  let final ← casPath cid
  if cas.has final then return (cid, cas)
  else
    match fault with
    | some error => throw error
    | none => return (cid, cas.set final text)

def casGet (cas : OrderedMap String String) (cid : String) : Except String Value := do
  let final ← casPath cid
  match cas.get? final with
  | none => throw ("cas: missing blob " ++ cid)
  | some text => parseJson text

def casHas (cas : OrderedMap String String) (cid : String) : Bool :=
  wellFormedCid cid && cas.has cid

/-- Copies well-formed blobs over what the target has under their names. -/
def copyBlobs (blobs : List (String × String)) (target : OrderedMap String String) :
    OrderedMap String String :=
  blobs.foldl (fun t blob => if wellFormedCid blob.1 then t.set blob.1 blob.2 else t) target

def casCopyAll (cas target : OrderedMap String String) : OrderedMap String String :=
  copyBlobs cas.entries target

lemma get?_copyBlobs {blobs : List (String × String)} (hkeys : (blobs.map Prod.fst).Nodup)
    (target : OrderedMap String String) (cid : String) :
    (copyBlobs blobs target).get? cid =
      if wellFormedCid cid then ((blobs.find? fun b => b.1 = cid).map Prod.snd).or (target.get? cid)
      else target.get? cid := by
  induction blobs generalizing target with
  | nil => simp [copyBlobs]
  | cons blob rest ih =>
    obtain ⟨hfresh, hrest⟩ := List.nodup_cons.mp hkeys
    rw [copyBlobs, List.foldl_cons, ← copyBlobs, ih hrest]
    by_cases hcid : blob.1 = cid
    · have hnone : rest.find? (fun b => b.1 = cid) = none := by
        apply List.find?_eq_none.mpr
        intro b hb he
        exact hfresh (List.mem_map.mpr ⟨b, hb, (of_decide_eq_true he).trans hcid.symm⟩)
      subst hcid
      cases hwell : wellFormedCid blob.1 with
      | true => simp [hnone]
      | false => simp
    · have htarget : (if wellFormedCid blob.1 then target.set blob.1 blob.2 else target).get? cid =
          target.get? cid := by
        split_ifs
        · exact OrderedMap.get?_set_of_ne _ _ (Ne.symm hcid)
        · rfl
      rw [htarget, List.find?_cons_of_neg (by simpa using hcid)]

lemma get?_casCopyAll (cas target : OrderedMap String String) (cid : String) :
    (casCopyAll cas target).get? cid =
      if wellFormedCid cid then (cas.get? cid).or (target.get? cid) else target.get? cid :=
  get?_copyBlobs cas.nodup target cid

lemma casPut_ok {cas cas' : OrderedMap String String} {data : Value} {fault : Option String}
    {cid : String} (h : casPut cas data fault = .ok (cid, cas')) :
    ∃ text, canonicalJson data = .ok text ∧ cid = sha256Text text ∧ wellFormedCid cid = true ∧
      (cas.has cid = true ∧ cas' = cas ∨ cas.has cid = false ∧ cas' = cas.set cid text) := by
  unfold casPut cidOf at h
  obtain ⟨text, htext, h⟩ := bind_eq_ok h
  rw [htext, ok_bind] at h
  obtain ⟨_, hcid, h⟩ := bind_eq_ok h
  cases hcid
  have hdigest : wellFormedCid (sha256Text text) = true :=
    decide_eq_true (isDigest_sha256Hex (utf8 text))
  rw [casPath, if_pos hdigest] at h
  obtain ⟨_, hfinal, h⟩ := bind_eq_ok h
  cases hfinal
  refine ⟨text, htext, ?_⟩
  cases hhas : cas.has (sha256Text text) with
  | true =>
    rw [hhas, if_pos rfl] at h
    cases h
    exact ⟨rfl, hdigest, Or.inl ⟨hhas, rfl⟩⟩
  | false =>
    rw [hhas, if_neg (by decide)] at h
    cases fault with
    | some e => cases h
    | none =>
      cases h
      exact ⟨rfl, hdigest, Or.inr ⟨hhas, rfl⟩⟩

end VivimOmega.Vault

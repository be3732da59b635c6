import VivimOmega.Library.OrderedMap
import VivimOmega.Library.Table
import VivimOmega.Library.Json.Stringify
import VivimOmega.Library.Transaction
import VivimOmega.Vault.Canon

/-! The vault's tables, their rows and the meta envelope. -/

namespace VivimOmega.Vault

open Library Library.Json

structure Ref where
  ns : String
  id : String
  rev : ℤ
  deriving DecidableEq

abbrev RevKey := String × String × ℤ

structure ObjectRow where
  ns : String
  id : String
  rev : ℤ
  cid : String
  metaText : String
  deriving DecidableEq

def ObjectRow.key (r : ObjectRow) : RevKey := (r.ns, r.id, r.rev)

structure ColdRow extends ObjectRow where
  movedAt : ℕ
  deriving DecidableEq

def ColdRow.key (r : ColdRow) : RevKey := r.toObjectRow.key

structure ChangelogRow extends LinkFields where
  entryHash : String
  prevHash : String
  deriving DecidableEq

def ChangelogRow.key (r : ChangelogRow) : RevKey := (r.ns, r.id, r.rev)

structure FtsRow where
  ns : String
  id : String
  rev : ℤ
  body : String
  deriving DecidableEq

def FtsRow.key (r : FtsRow) : RevKey := (r.ns, r.id, r.rev)

/-- `ORDER BY key DESC LIMIT 1`. The order of ℤ is named, as the one instance search finds need not
compute. -/
def lastBy {α : Type} (key : α → ℤ) (rows : List α) : Option α :=
  @List.argmax α ℤ Int.instLinearOrder.toPreorder (fun a b => Int.decLt a b) key rows

section

variable {α : Type} {key : α → ℤ} {rows : List α} {r m : α}

lemma mem_of_lastBy (h : lastBy key rows = some r) : r ∈ rows := by
  rw [lastBy] at h
  exact List.argmax_mem h

lemma le_of_lastBy (hr : r ∈ rows) (h : lastBy key rows = some m) : key r ≤ key m := by
  rw [lastBy] at h
  exact not_lt.mp (List.not_lt_of_mem_argmax hr h)

lemma lastBy_eq_none : lastBy key rows = none ↔ rows = [] := by
  rw [lastBy]
  exact List.argmax_eq_none

lemma lastBy_concat {last : α} (h : ∀ r ∈ rows, key r < key last) :
    lastBy key (rows ++ [last]) = some last := by
  have hconcat := @List.argmax_concat α ℤ Int.instLinearOrder.toPreorder
    (fun a b => Int.decLt a b) key last rows
  rw [lastBy, hconcat]
  cases hmax : lastBy key rows with
  | none =>
    rw [lastBy] at hmax
    rw [hmax]
  | some r =>
    have hlt := h r (mem_of_lastBy hmax)
    rw [lastBy] at hmax
    rw [hmax]
    exact if_pos hlt

end

/-- The tables, with their primary keys. -/
@[ext]
structure Tables where
  objects : Table RevKey ObjectRow ObjectRow.key
  coldObjects : Table RevKey ColdRow ColdRow.key
  changelog : Table ℤ ChangelogRow fun r => r.seq
  ftsIndex : List FtsRow

def Tables.empty : Tables := ⟨Table.empty, Table.empty, Table.empty, []⟩

/-- An open vault: its tables and the blobs of its content-addressed store, by cid. -/
structure VaultDB where
  tables : Tables
  cas : OrderedMap String String

def VaultDB.empty : VaultDB := ⟨Tables.empty, OrderedMap.empty⟩

abbrev Sql := Program Tables

def constraintFailed (table : String) : String := "UNIQUE constraint failed: " ++ table

section Statements

/-- A table of the database: how it is named, read and replaced. -/
structure TableRef (K R : Type) (key : R → K) where
  name : String
  get : Tables → Table K R key
  put : Tables → Table K R key → Tables
  get_put : ∀ t table, get (put t table) = table
  put_get : ∀ t, put t (get t) = t
  put_put : ∀ t table table', put (put t table) table' = put t table'

def TableRef.insert {K R : Type} [DecidableEq K] {key : R → K} (ref : TableRef K R key) (row : R) :
    Sql Unit := Program.execute fun t =>
  match (ref.get t).insert? row with
  | none => .error (constraintFailed ref.name)
  | some table => .ok (ref.put t table)

def objectsRef : TableRef RevKey ObjectRow ObjectRow.key :=
  ⟨"objects", Tables.objects, fun t objects => { t with objects }, fun _ _ => rfl, fun _ => rfl,
    fun _ _ _ => rfl⟩

def coldRef : TableRef RevKey ColdRow ColdRow.key :=
  ⟨"cold_objects", Tables.coldObjects, fun t coldObjects => { t with coldObjects }, fun _ _ => rfl,
    fun _ => rfl, fun _ _ _ => rfl⟩

def changelogRef : TableRef ℤ ChangelogRow fun r => r.seq :=
  ⟨"changelog", Tables.changelog, fun t changelog => { t with changelog }, fun _ _ => rfl, fun _ => rfl,
    fun _ _ _ => rfl⟩

def insertObject (row : ObjectRow) : Sql Unit := objectsRef.insert row

def insertCold (row : ColdRow) : Sql Unit := coldRef.insert row

def insertChangelog (row : ChangelogRow) : Sql Unit := changelogRef.insert row

def deleteObject (key : RevKey) : Sql Unit := Program.execute fun t =>
  .ok { t with objects := t.objects.delete fun r => r.key = key }

def ftsInsert (ns id : String) (rev : ℤ) (body : String) : Sql Unit := Program.execute fun t =>
  .ok { t with ftsIndex := t.ftsIndex ++ [⟨ns, id, rev, body⟩] }

/-- One delete for all the rows of a namespace that the staging table lists. -/
def ftsDeleteMany (ns : String) (targets : List (String × ℤ)) : Sql Unit :=
  if targets = [] then pure () else Program.execute fun t =>
    .ok { t with ftsIndex := t.ftsIndex.filter fun r => !(r.ns = ns ∧ (r.id, r.rev) ∈ targets) }

/-- `BEGIN IMMEDIATE` and `COMMIT`: the one takes the lock, the other makes the writes last. -/
def control : Sql Unit := Program.execute .ok

end Statements

section Envelope

structure MetaEnvelope where
  metaData : Value
  refs : List Ref

def refValue (r : Ref) : Value :=
  .object [(ofText "ns", .string (ofText r.ns)), (ofText "id", .string (ofText r.id)),
    (ofText "rev", .number (Number.ofInt r.rev))]

def orNull (v : Value) : Value := if v.isUndefined then .null else v

def envelopeOf (metaData : Value) (refs : List Ref) : Except String String :=
  stringify (.object [(ofText "meta", orNull metaData), (ofText "refs", .array (refs.map refValue))])

def malformedRef (r : Value) : String :=
  "vault.get@1: malformed refs entry in stored envelope: " ++
    match stringify r with
    | .ok text => text
    | .error e => e

def parseRef (r : Value) : Except String Ref :=
  match optionalProperty r "ns", optionalProperty r "id", optionalProperty r "rev" with
  | .string ns, .string id, .number rev =>
    match rev.toInt? with
    | some rev => return ⟨toText ns, toText id, rev⟩
    | none => throw (malformedRef r)
  | _, _, _ => throw (malformedRef r)

def parseJson (text : String) : Except String Value :=
  match parse text.toList with
  | some v => return v
  | none => throw "SyntaxError: JSON Parse error"

def parseEnvelope (text : String) : Except String MetaEnvelope := do
  let env ← parseJson text
  let stored ← property env "refs"
  let refs ← match stored with
    | .array items => items.mapM parseRef
    | _ => pure []
  let metaData ← property env "meta"
  return ⟨orNull metaData, refs⟩

def refKey (ns id : String) (rev : ℤ) : String := ns ++ "|" ++ id ++ "|" ++ toString rev

/-- Every provenance edge that a hot object declares. -/
def liveRefs (t : Tables) : Except String (List String) := do
  let envelopes ← t.objects.rows.mapM fun row => parseEnvelope row.metaText
  return (envelopes.flatMap MetaEnvelope.refs).map fun r => refKey r.ns r.id r.rev

lemma property_head (k : String) (v : Value) (rest : List (JsString × Value)) :
    property (.object ((ofText k, v) :: rest)) k = .ok v := by
  simp [property]
  rfl

lemma property_tail {k name : String} (v : Value) (rest : List (JsString × Value)) (h : k ≠ name) :
    property (.object ((ofText k, v) :: rest)) name = property (.object rest) name := by
  have hne : ofText k ≠ ofText name := by
    intro he
    have hh := congrArg toText he
    rw [toText_ofText, toText_ofText] at hh
    exact h hh
  simp [property, hne]

lemma serialized_refValue (r : Ref) : serialized (refValue r) = .ok (refValue r) := by
  simp [refValue, serialized, serializedMembers, Value.isUndefined, isFinite_ofInt]
  rfl

lemma parseRef_refValue (r : Ref) : parseRef (refValue r) = .ok r := by
  have hns : optionalProperty (refValue r) "ns" = .string (ofText r.ns) := by
    rw [optionalProperty, refValue, property_head]
  have hid : optionalProperty (refValue r) "id" = .string (ofText r.id) := by
    rw [optionalProperty, refValue, property_tail _ _ (by decide), property_head]
  have hrev : optionalProperty (refValue r) "rev" = .number (Number.ofInt r.rev) := by
    rw [optionalProperty, refValue, property_tail _ _ (by decide), property_tail _ _ (by decide),
      property_head]
  unfold parseRef
  rw [hns, hid, hrev]
  simp only [toInt?_ofInt, toText_ofText]
  rfl

lemma keyed_named (fields : List (String × Value)) (hnames : (fields.map Prod.fst).Nodup)
    (h : ∀ f ∈ fields, Keyed f.2) : Keyed (.object (fields.map fun f => (ofText f.1, f.2))) := by
  apply Keyed.object
  · rw [List.map_map]
    have hkeys := hnames.map ofText_injective
    rwa [List.map_map] at hkeys
  · intro m hm
    obtain ⟨f, hf, rfl⟩ := List.mem_map.mp hm
    exact h f hf

lemma keyed_refValue (r : Ref) : Keyed (refValue r) := by
  have hfields := keyed_named [("ns", .string (ofText r.ns)), ("id", .string (ofText r.id)),
    ("rev", .number (Number.ofInt r.rev))] (by simp) (by simp [Keyed.string, Keyed.number])
  exact hfields

lemma keyed_orNull {m : Value} (hm : Keyed m) : Keyed (orNull m) := by
  unfold orNull
  split_ifs
  · exact .null
  · exact hm

lemma isUndefined_orNull (v : Value) : (orNull v).isUndefined = false := by
  unfold orNull
  split_ifs with h
  · rfl
  · exact Bool.eq_false_iff.mpr h

lemma keyed_envelope {m : Value} (hm : Keyed m) (refs : List Ref) :
    Keyed (.object [(ofText "meta", orNull m), (ofText "refs", .array (refs.map refValue))]) := by
  have hrefs : Keyed (.array (refs.map refValue)) := by
    apply Keyed.array
    intro v hv
    obtain ⟨r, _, rfl⟩ := List.mem_map.mp hv
    exact keyed_refValue r
  have hfields := keyed_named [("meta", orNull m), ("refs", .array (refs.map refValue))]
    (by simp) (by simp [keyed_orNull hm, hrefs])
  exact hfields

lemma serializedItems_refs (refs : List Ref) :
    serializedItems (refs.map refValue) = .ok (refs.map refValue) := by
  induction refs with
  | nil => rfl
  | cons r rest ih =>
    rw [List.map_cons, serializedItems, serialized_refValue, ih]
    rfl

/-- The refs an envelope was made with are the refs read from it. -/
lemma parseEnvelope_envelopeOf {m : Value} (hm : Keyed m) {refs : List Ref} {text : String}
    (h : envelopeOf m refs = .ok text) : ∃ env, parseEnvelope text = .ok env ∧ env.refs = refs := by
  obtain ⟨w, hw, hparse⟩ := parse_stringify (keyed_envelope hm refs) h
  rw [serialized] at hw
  obtain ⟨ws, hws, hw⟩ := bind_eq_ok hw
  cases hw
  rw [serializedMembers, if_neg (by rw [isUndefined_orNull]; decide)] at hws
  obtain ⟨m', hm', hws⟩ := bind_eq_ok hws
  obtain ⟨tail, htail, hws⟩ := bind_eq_ok hws
  cases hws
  rw [serializedMembers, if_neg (by simp [Value.isUndefined]), serialized, serializedItems_refs] at htail
  cases htail
  have hrefs : (refs.map refValue).mapM parseRef = .ok refs := by
    rw [List.mapM_map, mapM_ok (parseRef ∘ refValue) id fun r _ => parseRef_refValue r, List.map_id]
  have hstored : property (.object [(ofText "meta", m'), (ofText "refs", .array (refs.map refValue))])
      "refs" = .ok (.array (refs.map refValue)) := by
    rw [property_tail _ _ (by decide), property_head]
  refine ⟨⟨orNull m', refs⟩, ?_, rfl⟩
  simp only [parseEnvelope, parseJson, hparse, pure_bind, hstored, ok_bind, hrefs, property_head]
  rfl

end Envelope

end VivimOmega.Vault

import VivimOmega.Vault.Cas
import VivimOmega.Vault.Validate

/-! The append path: a blob, an object revision, its search row and a changelog link. -/

namespace VivimOmega.Vault

open Library Library.Json Program

structure AppendInput where
  ns : Name
  id : Name
  data : KeyedValue
  metaData : KeyedValue
  refs : List Ref
  causationId : Name

structure AppendResult where
  rev : ℤ
  cid : String
  seq : ℤ
  deriving DecidableEq

def chainHead (t : Tables) : String :=
  match lastBy (fun r => r.seq) t.changelog.rows with
  | some row => row.entryHash
  | none => genesisHash

def nextSeq (t : Tables) : ℤ := ((t.changelog.rows.map fun r => r.seq).max?).getD 0 + 1

/-- The changelog of one object. -/
def history (t : Tables) (ns id : String) : List ChangelogRow :=
  t.changelog.rows.filter fun r => r.ns = ns ∧ r.id = id

def nextRev (t : Tables) (ns id : String) : ℤ :=
  (((history t ns id).map fun r => r.rev).max?).getD 0 + 1

/-- Inserts one link, reading the head inside the caller's transaction. -/
def appendChangelogEntry (causationId ns id : String) (rev : ℤ) (cid : String) : Sql (ℤ × String) := do
  let prevHash ← query chainHead
  let seq ← query nextSeq
  let fields : LinkFields := ⟨seq, causationId, ns, id, rev, cid⟩
  insertChangelog ⟨fields, entryHash fields prevHash, prevHash⟩
  return (seq, entryHash fields prevHash)

def appendRow (input : AppendInput) (cid : String) : Sql AppendResult := do
  control
  let rev ← query fun t => nextRev t input.ns input.id
  let metaText ← value (envelopeOf input.metaData.1 input.refs)
  insertObject ⟨input.ns, input.id, rev, cid, metaText⟩
  let body ← value (bodyText input.data.1)
  ftsInsert input.ns input.id rev body
  let entry ← appendChangelogEntry input.causationId input.ns input.id rev cid
  control
  return ⟨rev, cid, entry.1⟩

/-- What the environment makes fail: the blob's write, or a statement of the transaction. -/
structure Faults where
  blob : Option String
  sql : Option (ℕ × String)

/-- The blob is written before the transaction, so a rollback leaves at most an orphan blob. -/
def appendObject (v : VaultDB) (input : AppendInput) (faults : Faults) :
    Except String AppendResult × VaultDB :=
  match casPut v.cas input.data.1 faults.blob with
  | .error e => (.error e, v)
  | .ok (cid, cas) =>
    let (result, tables) := transaction (appendRow input cid) v.tables faults.sql
    (result, ⟨tables, cas⟩)

/-- The payload of `vault.append@1`, validated. -/
def appendOp (payload causationId : KeyedValue) : Except String AppendInput := do
  let op := "vault.append@1"
  let p ← requireObject op payload.1
  let ns ← requireName op "ns" (optionalProperty p "ns")
  let id ← requireName op "id" (optionalProperty p "id")
  let data := payload.property "data"
  let metaData := payload.property "meta"
  if data.1.isUndefined then throw (op ++ ": data is required")
  match metaData.1 with
  | .undefined | .null | .object _ => pure ()
  | _ => throw (op ++ ": meta must be an object when provided")
  let refs ← requireRefs op (optionalProperty p "refs")
  let causationId ← requireName op "causationId" causationId.1
  return ⟨ns, id, data, ⟨orNull metaData.1, keyed_orNull metaData.2⟩, refs, causationId⟩

section Spec

variable {t u : Tables} {input : AppendInput} {cid : String} {r : AppendResult}

def linkOf (t : Tables) (input : AppendInput) (cid : String) : LinkFields :=
  ⟨nextSeq t, input.causationId, input.ns, input.id, nextRev t input.ns input.id, cid⟩

/-- What a committed append has done to the tables. -/
structure Appended (input : AppendInput) (cid : String) (t u : Tables) : Prop where
  objects : ∃ metaText, envelopeOf input.metaData.1 input.refs = .ok metaText ∧
    u.objects.rows =
      t.objects.rows ++ [⟨input.ns, input.id, nextRev t input.ns input.id, cid, metaText⟩]
  cold : u.coldObjects = t.coldObjects
  changelog : u.changelog.rows = t.changelog.rows ++
    [⟨linkOf t input cid, entryHash (linkOf t input cid) (chainHead t), chainHead t⟩]
  fts : ∃ body, bodyText input.data.1 = .ok body ∧
    u.ftsIndex = t.ftsIndex ++ [⟨input.ns, input.id, nextRev t input.ns input.id, body⟩]

lemma runs_control_bind {β : Type} {g : Unit → Sql β} {b : β} (h : Runs (control >>= g) t b u) :
    Runs (g ()) t b u := by
  obtain ⟨t', ht, h⟩ := runs_execute_bind h
  cases ht
  exact h

lemma insert_ok {K R : Type} [DecidableEq K] {key : R → K} (ref : TableRef K R key) {row : R}
    {β : Type} {g : Unit → Sql β} {b : β} (h : Runs (ref.insert row >>= g) t b u) :
    ∃ table : Table K R key, (ref.get t).insert? row = some table ∧
      Runs (g ()) (ref.put t table) b u := by
  obtain ⟨t', ht, h⟩ := runs_execute_bind h
  cases hins : (ref.get t).insert? row with
  | none => simp [hins] at ht
  | some table =>
    simp only [hins] at ht
    cases ht
    exact ⟨table, rfl, h⟩

lemma ftsInsert_ok {ns id body : String} {rev : ℤ} {β : Type} {g : Unit → Sql β} {b : β}
    (h : Runs (ftsInsert ns id rev body >>= g) t b u) :
    Runs (g ()) { t with ftsIndex := t.ftsIndex ++ [⟨ns, id, rev, body⟩] } b u := by
  obtain ⟨t', ht, h⟩ := runs_execute_bind h
  cases ht
  exact h

lemma runs_appendChangelogEntry {causationId ns id : String} {rev : ℤ} {a : ℤ × String}
    (h : Runs (appendChangelogEntry causationId ns id rev cid) t a u) :
    let fields : LinkFields := ⟨nextSeq t, causationId, ns, id, rev, cid⟩
    ∃ changelog : Table ℤ ChangelogRow fun r => r.seq,
      changelog.rows = t.changelog.rows ++
        [⟨fields, entryHash fields (chainHead t), chainHead t⟩] ∧
      a = (nextSeq t, entryHash fields (chainHead t)) ∧ u = { t with changelog } := by
  have hhead := runs_query_bind h
  have hseq := runs_query_bind hhead
  obtain ⟨changelog, hrows, hend⟩ := insert_ok changelogRef hseq
  obtain ⟨ha, hu⟩ := runs_pure hend
  exact ⟨changelog, (Table.insert?_eq_some.mp hrows).2, ha, hu⟩

lemma runs_appendRow (h : Runs (appendRow input cid) t r u) :
    Appended input cid t u ∧ r = ⟨nextRev t input.ns input.id, cid, nextSeq t⟩ := by
  have hrev := runs_query_bind (runs_control_bind h)
  obtain ⟨metaText, hmeta, hinsert⟩ := runs_value_bind hrev
  obtain ⟨objects, hobjects, hindex⟩ := insert_ok objectsRef hinsert
  obtain ⟨body, hbody, hfts⟩ := runs_value_bind hindex
  obtain ⟨entry, t', hentry, hcommit⟩ := runs_bind (ftsInsert_ok hfts)
  obtain ⟨changelog, hchangelog, rfl, rfl⟩ := runs_appendChangelogEntry hentry
  have hend := runs_control_bind hcommit
  obtain ⟨hr, rfl⟩ := runs_pure hend
  exact ⟨⟨⟨metaText, hmeta, (Table.insert?_eq_some.mp hobjects).2⟩, rfl, hchangelog, ⟨body, hbody, rfl⟩⟩, hr⟩

/-- An append either fails and leaves the tables alone, or commits all its rows. -/
lemma appendObject_cases (v : VaultDB) (input : AppendInput) (faults : Faults) :
    (∃ e cas, appendObject v input faults = (.error e, ⟨v.tables, cas⟩) ∧
        (cas = v.cas ∨ ∃ cid, casPut v.cas input.data.1 faults.blob = .ok (cid, cas))) ∨
      ∃ cid cas u, casPut v.cas input.data.1 faults.blob = .ok (cid, cas) ∧
        Appended input cid v.tables u ∧
        appendObject v input faults =
          (.ok ⟨nextRev v.tables input.ns input.id, cid, nextSeq v.tables⟩, ⟨u, cas⟩) := by
  unfold appendObject
  cases hput : casPut v.cas input.data.1 faults.blob with
  | error e => exact Or.inl ⟨e, v.cas, rfl, Or.inl rfl⟩
  | ok put =>
    obtain ⟨cid, cas⟩ := put
    dsimp only
    rcases transaction_cases (appendRow input cid) v.tables faults.sql with
      ⟨e, he⟩ | ⟨result, u, hok, hruns⟩
    · rw [he]
      exact Or.inl ⟨e, cas, rfl, Or.inr ⟨cid, rfl⟩⟩
    · rw [hok]
      obtain ⟨happended, rfl⟩ := runs_appendRow hruns
      exact Or.inr ⟨cid, cas, u, rfl, happended, rfl⟩

end Spec

end VivimOmega.Vault

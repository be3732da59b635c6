import VivimOmega.Vault.Store
import VivimOmega.Library.Collect

/-! The read operations, which a compaction changes nothing for. -/

namespace VivimOmega.Vault

open Library Library.Json Library.Sha256

structure ObjectRecord where
  rev : ℤ
  cid : String
  data : Value
  metaData : Value
  refs : List Ref

/-- `ORDER BY rev DESC LIMIT 1`. -/
def latest (rows : List ObjectRow) (ns id : String) : Option ObjectRow :=
  lastBy (fun r => r.rev) (rows.filter fun r => r.ns = ns ∧ r.id = id)

def hotRow (t : Tables) (ns id : String) : Option ℤ → Option ObjectRow
  | some rev => t.objects.find? (ns, id, rev)
  | none => latest t.objects.rows ns id

def coldRow (t : Tables) (ns id : String) : Option ℤ → Option ObjectRow
  | some rev => (t.coldObjects.find? (ns, id, rev)).map ColdRow.toObjectRow
  | none => latest (t.coldObjects.rows.map ColdRow.toObjectRow) ns id

/-- Hot first, then cold. -/
def readRow (t : Tables) (ns id : String) (rev : Option ℤ) : Option ObjectRow :=
  (hotRow t ns id rev).or (coldRow t ns id rev)

def notFound (ns id : String) (rev : Option ℤ) : String :=
  "vault.get@1: no object " ++ ns ++ "/" ++ id ++
    (match rev with
    | some rev => "@" ++ toString rev
    | none => " (latest)") ++ " (not found)"

def readObject (v : VaultDB) (ns id : String) (rev : Option ℤ) : Except String ObjectRecord :=
  match readRow v.tables ns id rev with
  | none => throw (notFound ns id rev)
  | some row => do
    let env ← parseEnvelope row.metaText
    let data ← casGet v.cas row.cid
    return ⟨row.rev, row.cid, data, env.metaData, env.refs⟩

inductive ObjectGetRow
  | found (id : JsString) (rev : ℤ) (cid : String) (data metaData : Value)
  | missing (id : JsString)

def getRow (v : VaultDB) (ns : String) (id : JsString) : Except String ObjectGetRow :=
  match readRow v.tables ns (toText id) none with
  | none => return .missing id
  | some row => do
    let env ← parseEnvelope row.metaText
    let data ← casGet v.cas row.cid
    return .found id row.rev row.cid data env.metaData

def getRows (v : VaultDB) (ns : String) :
    List JsString → List JsString → Except String (List ObjectGetRow)
  | [], _ => return []
  | id :: rest, seen =>
    if id ∈ seen then getRows v ns rest seen
    else do
      let row ← getRow v ns id
      let rows ← getRows v ns rest (id :: seen)
      return row :: rows

def getManyBound : ℕ := 512

def readObjects (v : VaultDB) (ns : String) (ids : List JsString) :
    Except String (List ObjectGetRow) :=
  if ids.eraseDups.length > getManyBound then
    throw ("readObjects: " ++ toString ids.eraseDups.length ++ " distinct ids exceeds the " ++
      toString getManyBound ++ " bound (D-387)")
  else getRows v ns ids []

structure QueryFilter where
  idPrefix : Option String
  minRev : Option ℤ

structure QueryRow where
  id : String
  rev : ℤ
  cid : String

def escapeLike (pattern : List Char) : List Char :=
  pattern.flatMap fun c => if c = '\\' ∨ c = '%' ∨ c = '_' then ['\\', c] else [c]

def likeChar (c : Char) (next : List Char → Bool) : List Char → Bool
  | [] => false
  | d :: rest => c.toLower = d.toLower && next rest

/-- SQLite's `LIKE … ESCAPE '\'`, which does not tell the case of ASCII letters. -/
def like : List Char → List Char → Bool
  | [] => fun s => s.isEmpty
  | '\\' :: c :: pattern => likeChar c (like pattern)
  | c :: pattern => fun s =>
    if c = '%' then s.tails.any (like pattern)
    else if c = '_' then s ≠ [] && like pattern s.tail
    else if c = '\\' then false
    else likeChar c (like pattern) s

def QueryFilter.admits (filter : QueryFilter) (row : ObjectRow) : Bool :=
  (filter.idPrefix.all fun p => like (escapeLike p.toList ++ ['%']) row.id.toList) &&
    filter.minRev.all fun n => n ≤ row.rev

def maxRev (rows : List ObjectRow) (ns id : String) : Option ℤ :=
  ((rows.filter fun r => r.ns = ns ∧ r.id = id).map fun r => r.rev).max?

/-- The latest hot revision of every id, by id. -/
def queryObjects (t : Tables) (ns : String) (filter : QueryFilter) : List QueryRow :=
  ((t.objects.rows.filter fun o =>
    (o.ns = ns ∧ maxRev t.objects.rows ns o.id = some o.rev) && filter.admits o).map fun o =>
      ⟨o.id, o.rev, o.cid⟩).insertionSort fun a b => a.id ≤ b.id

/-- The prefix filter selects the ids that start with it, the case of ASCII letters aside. -/
lemma like_escapeLike (p s : List Char) :
    like (escapeLike p ++ ['%']) s = true ↔ p.map Char.toLower <+: s.map Char.toLower := by
  induction p generalizing s with
  | nil =>
    have hall : like ['%'] s = s.tails.any (like []) := rfl
    rw [escapeLike, List.flatMap_nil, List.nil_append, hall, List.any_eq_true]
    refine ⟨fun _ => List.nil_prefix, fun _ => ⟨[], ?_, rfl⟩⟩
    exact (List.mem_tails _ _).mpr List.nil_suffix
  | cons c p ih =>
    have hstep : like (escapeLike (c :: p) ++ ['%']) s = likeChar c (like (escapeLike p ++ ['%'])) s := by
      rw [escapeLike, List.flatMap_cons, ← escapeLike, List.append_assoc]
      split_ifs with hspecial
      · rfl
      · obtain ⟨hslash, hspecial⟩ := not_or.mp hspecial
        obtain ⟨hpercent, hlow⟩ := not_or.mp hspecial
        rw [List.singleton_append, like]
        · dsimp only
          rw [if_neg hpercent, if_neg hlow, if_neg hslash]
        · rintro d rest rfl
          exact absurd rfl hslash
    rw [hstep]
    cases s with
    | nil => simp [likeChar]
    | cons d rest =>
      rw [likeChar, Bool.and_eq_true, decide_eq_true_eq, ih, List.map_cons, List.map_cons,
        List.cons_prefix_cons]

section Operations

def getOp (v : VaultDB) (payload : Value) : Except String ObjectRecord := do
  let p ← requireObject "vault.get@1" payload
  let ns ← requireName "vault.get@1" "ns" (optionalProperty p "ns")
  let id ← requireName "vault.get@1" "id" (optionalProperty p "id")
  let rev ← optionalInt "vault.get@1" "rev" (optionalProperty p "rev") 1
  readObject v ns id (rev.map Subtype.val)

def requireIds (value : Value) : Except String (List JsString) :=
  let refusal := "vault.getmany@1: ids must be an array of non-empty strings"
  match value with
  | .array items => items.mapM fun
    | .string s => if s = [] then throw refusal else return s
    | _ => throw refusal
  | _ => throw refusal

def getmanyOp (v : VaultDB) (payload : Value) : Except String (List ObjectGetRow) := do
  let p ← requireObject "vault.getmany@1" payload
  let ns ← requireName "vault.getmany@1" "ns" (optionalProperty p "ns")
  let ids ← requireIds (optionalProperty p "ids")
  if ids.eraseDups.length > getManyBound then
    throw ("vault.getmany@1: " ++ toString ids.eraseDups.length ++ " distinct ids exceeds the " ++
      toString getManyBound ++ " bound — page through vault.query@1 + repeated batches")
  readObjects v ns ids

def queryOp (v : VaultDB) (payload : Value) : Except String (List QueryRow) := do
  let p ← requireObject "vault.query@1" payload
  let ns ← requireName "vault.query@1" "ns" (optionalProperty p "ns")
  let filter ←
    if isNullish (optionalProperty p "filter") then pure (.object [])
    else requireObject "vault.query@1 filter" (optionalProperty p "filter")
  let idPrefix ←
    if isNullish (optionalProperty filter "idPrefix") then pure none
    else (requireName "vault.query@1" "filter.idPrefix" (optionalProperty filter "idPrefix")).map some
  let minRev ← optionalInt "vault.query@1" "filter.minRev" (optionalProperty filter "minRev") 0
  return queryObjects v.tables ns ⟨idPrefix.map Subtype.val, minRev.map Subtype.val⟩

end Operations

section Rows

variable {v : VaultDB} {t u : Tables} {ns id : String}

/-- The row stands in one of the two tables. -/
def Present (t : Tables) (r : ObjectRow) : Prop :=
  r ∈ t.objects.rows ∨ ∃ c ∈ t.coldObjects.rows, c.toObjectRow = r

lemma Consistent.rev_mem (hv : Consistent v) {r : ObjectRow} (hr : Present v.tables r) :
    r.rev ∈ revs v.tables r.ns r.id := by
  have hstored : Stored v.tables r.key r.cid := by
    rcases hr with hr | ⟨c, hc, rfl⟩
    · exact Or.inl ⟨r, hr, rfl, rfl⟩
    · exact Or.inr ⟨c, hc, rfl, rfl⟩
  obtain ⟨c, hc, hkey, _⟩ := (hv.stored _ _).mp hstored
  obtain ⟨hns, hrest⟩ := Prod.mk.inj hkey
  obtain ⟨hid, hrev⟩ := Prod.mk.inj hrest
  exact hrev ▸ mem_revs hc hns hid

lemma Consistent.rev_le (hv : Consistent v) {r : ObjectRow} (hr : Present v.tables r) :
    r.rev ≤ (revs v.tables r.ns r.id).length :=
  ((hv.counted _ _).mem_iff.mp (hv.rev_mem hr)).2

lemma Consistent.present_unique (hv : Consistent v) {r s : ObjectRow} (hr : Present v.tables r)
    (hs : Present v.tables s) (h : r.key = s.key) : r = s := by
  rcases hr with hr | ⟨c, hc, rfl⟩
  · rcases hs with hs | ⟨d, hd, rfl⟩
    · exact Table.eq_of_key hr hs h
    · exact absurd h (hv.disjoint r hr d hd)
  · rcases hs with hs | ⟨d, hd, rfl⟩
    · exact absurd h.symm (hv.disjoint s hs c hc)
    · rw [Table.eq_of_key hc hd h]

/-- The newest revision is the latest hot one. -/
lemma Consistent.latest_hot (hv : Consistent v) (hne : revs v.tables ns id ≠ []) :
    ∃ r ∈ v.tables.objects.rows, r.key = (ns, id, ((revs v.tables ns id).length : ℤ)) ∧
      latest v.tables.objects.rows ns id = some r := by
  obtain ⟨r, hr, hkey⟩ := hv.newest ns id hne
  refine ⟨r, hr, hkey, ?_⟩
  obtain ⟨hns, hrest⟩ := Prod.mk.inj hkey
  obtain ⟨hid, hrev⟩ := Prod.mk.inj hrest
  have hmem : r ∈ v.tables.objects.rows.filter fun r => r.ns = ns ∧ r.id = id :=
    List.mem_filter.mpr ⟨hr, decide_eq_true ⟨hns, hid⟩⟩
  rw [latest]
  cases hmax : lastBy (fun r => r.rev)
      (v.tables.objects.rows.filter fun r => r.ns = ns ∧ r.id = id) with
  | none =>
    rw [lastBy_eq_none.mp hmax] at hmem
    cases hmem
  | some m =>
    obtain ⟨hm, hmid⟩ := List.mem_filter.mp (mem_of_lastBy hmax)
    obtain ⟨hmns, hmid⟩ := of_decide_eq_true hmid
    have hle : r.rev ≤ m.rev := le_of_lastBy hmem hmax
    have hge := hv.rev_le (Or.inl hm)
    rw [hmns, hmid] at hge
    have heq : m.rev = r.rev := by omega
    rw [Table.eq_of_key hm hr]
    rw [ObjectRow.key, ObjectRow.key, heq, hmns, hmid, hns, hid]

lemma Consistent.latest_none (hv : Consistent v) (hnil : revs v.tables ns id = [])
    {rows : List ObjectRow} (hrows : ∀ r ∈ rows, Present v.tables r) : latest rows ns id = none := by
  rw [latest, lastBy_eq_none, List.filter_eq_nil_iff]
  intro r hr hid
  obtain ⟨rfl, rfl⟩ := of_decide_eq_true hid
  have hmem := hv.rev_mem (hrows r hr)
  rw [hnil] at hmem
  cases hmem

/-- What a read finds: the row of the revision asked for, or of the newest. -/
lemma Consistent.readRow_iff (hv : Consistent v) (rev : Option ℤ) (r : ObjectRow) :
    readRow v.tables ns id rev = some r ↔
      Present v.tables r ∧ r.key = (ns, id, rev.getD (revs v.tables ns id).length) := by
  rw [readRow, Option.or_eq_some_iff]
  cases rev with
  | some rev =>
    rw [hotRow, coldRow, Table.find?_eq_some, Table.find?_eq_none, Option.map_eq_some_iff,
      Option.getD_some]
    constructor
    · rintro (⟨hr, hkey⟩ | ⟨_, c, hc, rfl⟩)
      · exact ⟨Or.inl hr, hkey⟩
      · obtain ⟨hc, hkey⟩ := Table.find?_eq_some.mp hc
        exact ⟨Or.inr ⟨c, hc, rfl⟩, hkey⟩
    · rintro ⟨hr | ⟨c, hc, rfl⟩, hkey⟩
      · exact Or.inl ⟨hr, hkey⟩
      · refine Or.inr ⟨fun s hs he => ?_, c, Table.find?_eq_some.mpr ⟨hc, hkey⟩, rfl⟩
        exact hv.disjoint s hs c hc (he.trans hkey.symm)
  | none =>
    rw [hotRow, coldRow, Option.getD_none]
    by_cases hnil : revs v.tables ns id = []
    · have hcold : ∀ r ∈ v.tables.coldObjects.rows.map ColdRow.toObjectRow, Present v.tables r := by
        intro r hr
        obtain ⟨c, hc, rfl⟩ := List.mem_map.mp hr
        exact Or.inr ⟨c, hc, rfl⟩
      rw [hv.latest_none hnil fun r hr => Or.inl hr, hv.latest_none hnil hcold]
      constructor
      · rintro (h | ⟨_, h⟩)
        · cases h
        · cases h
      · rintro ⟨hr, hkey⟩
        obtain ⟨rfl, hrest⟩ := Prod.mk.inj hkey
        obtain ⟨rfl, _⟩ := Prod.mk.inj hrest
        have hmem := hv.rev_mem hr
        rw [hnil] at hmem
        cases hmem
    · obtain ⟨s, hs, hskey, hlatest⟩ := hv.latest_hot hnil
      rw [hlatest]
      constructor
      · rintro (h | ⟨h, _⟩)
        · cases h
          exact ⟨Or.inl hs, hskey⟩
        · cases h
      · rintro ⟨hr, hkey⟩
        rw [hv.present_unique (Or.inl hs) hr (hskey.trans hkey.symm)]
        exact Or.inl rfl

end Rows

section Compaction

variable {v : VaultDB} {t u : Tables} {ns : String} {keep now : ℕ} {refs : List String}
  {keys : List RevKey}

lemma Compacted.present (h : Compacted ns keep now refs keys t u) (r : ObjectRow) :
    Present u r ↔ Present t r := by
  constructor
  · rintro (hr | ⟨c, hc, rfl⟩)
    · rw [h.objects] at hr
      exact Or.inl (List.mem_of_mem_filter hr)
    · rcases (h.cold c).mp hc with hc | ⟨r, hr, _, rfl⟩
      · exact Or.inr ⟨c, hc, rfl⟩
      · exact Or.inl hr
  · rintro (hr | ⟨c, hc, rfl⟩)
    · by_cases hin : r.key ∈ keys
      · exact Or.inr ⟨⟨r, now⟩, (h.cold _).mpr (Or.inr ⟨r, hr, hin, rfl⟩), rfl⟩
      · refine Or.inl ?_
        rw [h.objects]
        exact List.mem_filter.mpr ⟨hr, decide_eq_true hin⟩
    · exact Or.inr ⟨c, (h.cold c).mpr (Or.inl hc), rfl⟩

lemma Compacted.revs (h : Compacted ns keep now refs keys t u) (ns' id : String) :
    revs u ns' id = revs t ns' id := by
  rw [Vault.revs, history, h.changelog]
  rfl

/-- Every read finds the row it found before. -/
lemma Compacted.readRow (h : Compacted ns keep now refs keys v.tables u) (hv : Consistent v)
    (hkeep : 1 ≤ keep) (ns' id : String) (rev : Option ℤ) :
    readRow u ns' id rev = readRow v.tables ns' id rev := by
  have hu := hv.compact hkeep h
  apply Option.ext
  intro r
  rw [hv.readRow_iff, ← h.present r, ← h.revs ns' id]
  exact hu.readRow_iff rev r

/-- The rows that a query takes are those of the newest revisions. -/
lemma Consistent.maxRev_iff (hv : Consistent v) {o : ObjectRow} (ho : o ∈ v.tables.objects.rows) :
    maxRev v.tables.objects.rows o.ns o.id = some o.rev ↔
      o.rev = (revs v.tables o.ns o.id).length := by
  have hne : Vault.revs v.tables o.ns o.id ≠ [] := List.ne_nil_of_mem (hv.rev_mem (Or.inl ho))
  obtain ⟨r, hr, hkey⟩ := hv.newest _ _ hne
  obtain ⟨hns, hrest⟩ := Prod.mk.inj hkey
  obtain ⟨hid, hrev⟩ := Prod.mk.inj hrest
  have hmem : ∀ s ∈ v.tables.objects.rows, s.ns = o.ns → s.id = o.id →
      s.rev ∈ (v.tables.objects.rows.filter fun r => r.ns = o.ns ∧ r.id = o.id).map fun r => r.rev := by
    intro s hs hns hid
    exact List.mem_map_of_mem (List.mem_filter.mpr ⟨hs, decide_eq_true ⟨hns, hid⟩⟩)
  rw [maxRev, List.max?_eq_some_iff]
  constructor
  · rintro ⟨_, hmax⟩
    have hge := hmax r.rev (hmem r hr hns hid)
    have hle := hv.rev_le (Or.inl ho)
    omega
  · intro heq
    refine ⟨hmem o ho rfl rfl, fun b hb => ?_⟩
    obtain ⟨s, hs, rfl⟩ := List.mem_map.mp hb
    obtain ⟨hs, hsid⟩ := List.mem_filter.mp hs
    obtain ⟨hsns, hsid⟩ := of_decide_eq_true hsid
    have hle := hv.rev_le (Or.inl hs)
    rw [hsns, hsid] at hle
    omega

/-- A row is the newest of its id before exactly when it is hot and the newest after. -/
lemma Compacted.newest_iff (h : Compacted ns keep now refs keys v.tables u) (hv : Consistent v)
    (hkeep : 1 ≤ keep) {o : ObjectRow} (ho : o ∈ v.tables.objects.rows) :
    (maxRev u.objects.rows o.ns o.id = some o.rev ∧ o.key ∉ keys) ↔
      maxRev v.tables.objects.rows o.ns o.id = some o.rev := by
  have hu := hv.compact hkeep h
  have hiff : o.key ∉ keys →
      (maxRev u.objects.rows o.ns o.id = some o.rev ↔ o.rev = (Vault.revs v.tables o.ns o.id).length) := by
    intro hout
    have hmem : o ∈ u.objects.rows := by
      rw [h.objects]
      exact List.mem_filter.mpr ⟨ho, decide_eq_true hout⟩
    rw [← h.revs]
    exact hu.maxRev_iff hmem
  rw [hv.maxRev_iff ho]
  constructor
  · rintro ⟨hmax, hout⟩
    exact (hiff hout).mp hmax
  · intro heq
    have hout : o.key ∉ keys := by
      rw [h.superseded, ObjectRow.key, heq]
      exact hv.not_superseded hkeep o.ns o.id
    exact ⟨(hiff hout).mpr heq, hout⟩

lemma Compacted.queryObjects (h : Compacted ns keep now refs keys v.tables u) (hv : Consistent v)
    (hkeep : 1 ≤ keep) (ns' : String) (filter : QueryFilter) :
    queryObjects u ns' filter = queryObjects v.tables ns' filter := by
  have hrows : (u.objects.rows.filter fun o =>
      (o.ns = ns' ∧ maxRev u.objects.rows ns' o.id = some o.rev) && filter.admits o) =
      v.tables.objects.rows.filter fun o =>
        (o.ns = ns' ∧ maxRev v.tables.objects.rows ns' o.id = some o.rev) && filter.admits o := by
    calc _ = (v.tables.objects.rows.filter fun r => r.key ∉ keys).filter fun o =>
          (o.ns = ns' ∧ maxRev u.objects.rows ns' o.id = some o.rev) && filter.admits o := by
          rw [← h.objects]
      _ = v.tables.objects.rows.filter fun o =>
          ((o.ns = ns' ∧ maxRev u.objects.rows ns' o.id = some o.rev) && filter.admits o) &&
            o.key ∉ keys := by
          rw [List.filter_filter]
      _ = _ := by
          apply List.filter_congr
          intro o ho
          by_cases hns : o.ns = ns'
          · subst hns
            have hiff := h.newest_iff hv hkeep ho
            rw [Bool.eq_iff_iff]
            simp only [Bool.and_eq_true, decide_eq_true_eq, true_and]
            rw [and_right_comm, hiff]
          · simp [hns]
  rw [Vault.queryObjects, Vault.queryObjects, hrows]

lemma mem_liveRefs {live : List String} (h : liveRefs t = .ok live) {o : ObjectRow}
    {env : MetaEnvelope} {ref : Ref} (ho : o ∈ t.objects.rows)
    (henv : parseEnvelope o.metaText = .ok env) (href : ref ∈ env.refs) :
    refKey ref.ns ref.id ref.rev ∈ live := by
  obtain ⟨envs, henvs, h⟩ := bind_eq_ok h
  cases h
  apply List.mem_map_of_mem (f := fun r : Ref => refKey r.ns r.id r.rev)
  exact List.mem_flatMap.mpr ⟨env, mem_of_mapM henvs ho henv, href⟩

/-- What a hot object refers to stays hot. -/
lemma Compacted.protected (h : Compacted ns keep now refs keys t u) {r o : ObjectRow}
    {env : MetaEnvelope} {ref : Ref} (hr : r ∈ t.objects.rows) (ho : o ∈ t.objects.rows)
    (henv : parseEnvelope o.metaText = .ok env) (href : ref ∈ env.refs)
    (hkey : r.key = (ref.ns, ref.id, ref.rev)) : r ∈ u.objects.rows := by
  rw [h.objects]
  refine List.mem_filter.mpr ⟨hr, decide_eq_true fun hin => ?_⟩
  obtain ⟨hns, _, hfree⟩ := (h.superseded r.key).mp hin
  have hlive := mem_liveRefs h.live ho henv href
  rw [hkey] at hns hfree
  subst hns
  exact hfree hlive

/-- A row with fewer newer hot ones than are kept stays hot. -/
lemma Compacted.newest (h : Compacted ns keep now refs keys t u) {r : ObjectRow}
    (hr : r ∈ t.objects.rows)
    (hfew : ((hotRevs t r.ns r.id).filter fun rev => r.rev < rev).length < keep) :
    r ∈ u.objects.rows := by
  rw [h.objects]
  refine List.mem_filter.mpr ⟨hr, decide_eq_true fun hin => ?_⟩
  obtain ⟨hns, htake, _⟩ := (h.superseded r.key).mp hin
  subst hns
  have hle := keep_le_newer hotRevs_sorted htake
  exact absurd hfew (not_lt.mpr hle)

end Compaction

section Reads

variable {v : VaultDB} {u : Tables} {ns : String}

/-- A blob that is the canonical text its name is the digest of. -/
def Genuine (cid text : String) : Prop :=
  sha256Text text = cid ∧ ∃ data : KeyedValue, canonicalJson data.1 = .ok text

/-- Everything that a read parses is there to parse. -/
structure Readable (v : VaultDB) : Prop where
  envelopes : ∀ r, Present v.tables r → ∃ env, parseEnvelope r.metaText = .ok env
  blobs : ∀ cid text, v.cas.get? cid = some text → Genuine cid text

lemma Genuine.parse {cid text : String} (h : Genuine cid text) : ∃ w, parseJson text = .ok w := by
  obtain ⟨_, data, hdata⟩ := h
  unfold canonicalJson at hdata
  cases hchars : canonicalText (fun v => "canonicalJson: unsupported value " ++ v.typeOf ++ " (" ++
      v.shown ++ ")") data.1 with
  | error e => rw [hchars] at hdata; cases hdata
  | ok chars =>
    rw [hchars] at hdata
    cases hdata
    obtain ⟨w, hw, rfl⟩ := data.2.written hchars
    refine ⟨w, ?_⟩
    rw [parseJson, String.toList_ofList, parse_render hw]
    rfl

lemma genuine_casPut {input : AppendInput} {cid : String} {cas : OrderedMap String String}
    {fault : Option String} (h : casPut v.cas input.data.1 fault = .ok (cid, cas))
    (hv : ∀ cid text, v.cas.get? cid = some text → Genuine cid text) :
    ∀ cid text, cas.get? cid = some text → Genuine cid text := by
  obtain ⟨text, htext, hcid, _, ⟨_, rfl⟩ | ⟨_, rfl⟩⟩ := casPut_ok h
  · exact hv
  · intro c stored hstored
    rw [OrderedMap.get?_set] at hstored
    split_ifs at hstored with hc
    · cases hstored
      rw [hc]
      exact ⟨hcid.symm, input.data, htext⟩
    · exact hv c stored hstored

lemma Readable.write (hr : Readable v) (faults : Faults) (now : ℕ) (write : Write) :
    Readable (runWrite v faults now write).2 := by
  cases write with
  | append input =>
    rcases appendObject_cases v input faults with ⟨e, cas, he, hcas⟩ | ⟨cid, cas, u, hput, happ, hok⟩
    · rw [runWrite, he]
      rcases hcas with rfl | ⟨cid, hput⟩
      · exact hr
      · exact ⟨hr.envelopes, genuine_casPut hput hr.blobs⟩
    · rw [runWrite, hok]
      refine ⟨?_, genuine_casPut hput hr.blobs⟩
      obtain ⟨⟨metaText, hmeta, hobjects⟩, hcold, _, _⟩ := happ
      intro r hpresent
      rcases hpresent with hmem | ⟨c, hc, rfl⟩
      · dsimp only at hmem
        rw [hobjects] at hmem
        rcases List.mem_append.mp hmem with hmem | hmem
        · exact hr.envelopes r (Or.inl hmem)
        · obtain rfl := List.mem_singleton.mp hmem
          obtain ⟨env, henv, _⟩ := parseEnvelope_envelopeOf input.metaData.2 hmeta
          exact ⟨env, henv⟩
      · dsimp only at hc
        rw [hcold] at hc
        exact hr.envelopes _ (Or.inr ⟨c, hc, rfl⟩)
  | compact ns keep =>
    rcases compact_cases v ns keep now faults.sql with ⟨e, he⟩ | ⟨r, u, refs, keys, _, hc, hok⟩
    · rw [runWrite, he]
      exact hr
    · rw [runWrite, hok]
      exact ⟨fun r hpresent => hr.envelopes r ((hc.present r).mp hpresent), hr.blobs⟩

lemma reachable_readable {s : Store} (h : store.Reachable System.free s) : Readable s.vault := by
  refine System.Reachable.invariant (P := fun s : Store => Readable s.vault) (fun s hs => ?_)
    (fun s e t _ hs _ ht => ?_) h
  · rw [hs]
    refine ⟨fun r hr => ?_, fun cid text ht => ?_⟩
    · rcases hr with hr | ⟨c, hc, _⟩
      · cases hr
      · cases hc
    · cases ht
  · rcases step_vault ht with he | ⟨faults, now, write, he⟩
    · rw [he]
      exact hs
    · rw [he]
      exact hs.write faults now write

/-- A row that stands in a table can be read. -/
lemma Readable.row (hr : Readable v) (hv : Consistent v) {row : ObjectRow}
    (h : Present v.tables row) : ∃ env data, parseEnvelope row.metaText = .ok env ∧
      casGet v.cas row.cid = .ok data := by
  obtain ⟨env, henv⟩ := hr.envelopes row h
  have hstored : Stored v.tables row.key row.cid := by
    rcases h with h | ⟨c, hc, rfl⟩
    · exact Or.inl ⟨row, h, rfl, rfl⟩
    · exact Or.inr ⟨c, hc, rfl, rfl⟩
  obtain ⟨c, hc, _, hcid⟩ := (hv.stored _ _).mp hstored
  have hhas := hv.blobs c hc
  rw [hcid, casHas, Bool.and_eq_true] at hhas
  obtain ⟨text, htext⟩ := (OrderedMap.has_iff _ _).mp hhas.2
  obtain ⟨data, hdata⟩ := (hr.blobs _ _ htext).parse
  refine ⟨env, data, henv, ?_⟩
  rw [casGet, casPath, if_pos hhas.1]
  simp only [pure_bind, htext, hdata]

/-- The row of a batch that stands for the outcome of a single read. -/
def rowOf (id : JsString) : Except String ObjectRecord → ObjectGetRow
  | .ok r => .found id r.rev r.cid r.data r.metaData
  | .error _ => .missing id

lemma getRow_eq (hr : Readable v) (hv : Consistent v) (ns : String) (id : JsString) :
    getRow v ns id = .ok (rowOf id (readObject v ns (toText id) none)) := by
  unfold getRow readObject
  cases hrow : readRow v.tables ns (toText id) none with
  | none => rfl
  | some row =>
    obtain ⟨env, data, henv, hdata⟩ := hr.row hv ((hv.readRow_iff _ _).mp hrow).1
    simp only [henv, hdata, ok_bind]
    rfl

lemma eraseDups_filter {α : Type} [BEq α] [LawfulBEq α] (p : α → Bool) (xs : List α) :
    (xs.filter p).eraseDups = xs.eraseDups.filter p := by
  induction hn : xs.length using Nat.strongRecOn generalizing xs with
  | _ n ih =>
    cases xs with
    | nil => rfl
    | cons x rest =>
      have hshort : (rest.filter fun b => !b == x).length < n := by
        rw [← hn, List.length_cons]
        exact Nat.lt_succ_of_le (List.length_filter_le _ _)
      have hrest := ih _ hshort _ rfl
      rw [List.eraseDups_cons, List.filter_cons, List.filter_cons]
      cases hp : p x with
      | true =>
        rw [if_pos rfl, if_pos rfl, List.eraseDups_cons, ← hrest, List.filter_filter, List.filter_filter]
        simp only [Bool.and_comm]
      | false =>
        rw [if_neg (by decide), if_neg (by decide), ← hrest, List.filter_filter]
        congr 1
        apply List.filter_congr
        intro b _
        by_cases hb : b = x
        · rw [hb, hp]
          rfl
        · simp [hb]

/-- The loop over the ids reads every distinct id once, in the order of first occurrence. -/
lemma getRows_eq {f : JsString → ObjectGetRow} (hrow : ∀ id, getRow v ns id = .ok (f id))
    (ids seen : List JsString) :
    getRows v ns ids seen = .ok ((ids.eraseDups.filter fun id => id ∉ seen).map f) := by
  induction ids generalizing seen with
  | nil => rfl
  | cons id rest ih =>
    have hfresh : (rest.filter fun b => !b == id).eraseDups = rest.eraseDups.filter fun b => !b == id :=
      eraseDups_filter _ rest
    rw [getRows, List.eraseDups_cons, hfresh, List.filter_cons, List.filter_filter]
    split_ifs with hseen hout hout
    · exact absurd hseen (of_decide_eq_true hout)
    · rw [ih]
      congr 2
      apply List.filter_congr
      intro b _
      by_cases hb : b = id
      · simp [hb, hseen]
      · simp [hb]
    · rw [hrow, ok_bind, ih, ok_bind, List.map_cons]
      congr 3
      apply List.filter_congr
      intro b _
      by_cases hb : b = id
      · simp [hb]
      · simp [hb]
    · exact absurd (decide_eq_true hseen) hout

def getPayload (ns : Name) (id : JsString) : Value :=
  .object [(ofText "ns", .string (ofText ns)), (ofText "id", .string id)]

def manyPayload (ns : Name) (ids : List JsString) : Value :=
  .object [(ofText "ns", .string (ofText ns)), (ofText "ids", .array (ids.map .string))]

lemma requireName_name (op field : String) (n : Name) :
    requireName op field (.string (ofText n)) = .ok n := by
  have h : IsName (toText (ofText n)) := by
    rw [toText_ofText]
    exact n.2
  rw [requireName_ok h]
  exact congrArg _ (Subtype.ext (toText_ofText n))

lemma getOp_eq (v : VaultDB) (ns : Name) (id : JsString) :
    getOp v (getPayload ns id) =
      (requireName "vault.get@1" "id" (.string id) >>= fun id => readObject v ns id none) := by
  have hns : optionalProperty (getPayload ns id) "ns" = .string (ofText ns) := by
    rw [optionalProperty, getPayload, property_head]
  have hid : optionalProperty (getPayload ns id) "id" = .string id := by
    rw [optionalProperty, getPayload, property_tail _ _ (by decide), property_head]
  have hrev : optionalProperty (getPayload ns id) "rev" = .undefined := by
    rw [optionalProperty, getPayload, property_tail _ _ (by decide), property_tail _ _ (by decide)]
    rfl
  have hobj : requireObject "vault.get@1" (getPayload ns id) = .ok (getPayload ns id) := rfl
  rw [getOp, hobj, ok_bind, hns, requireName_name, ok_bind, hid, hrev]
  rfl

/-- A single read of an id that no name is finds nothing either. -/
lemma rowOf_getOp (hv : Consistent v) (ns : Name) (id : JsString) :
    rowOf id (getOp v (getPayload ns id)) = rowOf id (readObject v ns (toText id) none) := by
  rw [getOp_eq]
  by_cases hid : IsName (toText id)
  · rw [requireName_ok hid]
    rfl
  · obtain ⟨e, he⟩ := requireName_error "vault.get@1" "id" hid
    have hnone : readRow v.tables ns (toText id) none = none := by
      apply Option.eq_none_iff_forall_not_mem.mpr
      intro r hr
      obtain ⟨hpresent, hkey⟩ := (hv.readRow_iff _ _).mp hr
      obtain ⟨_, hrest⟩ := Prod.mk.inj hkey
      obtain ⟨hrid, _⟩ := Prod.mk.inj hrest
      obtain ⟨c, hc, _⟩ := List.mem_map.mp (hv.rev_mem hpresent)
      obtain ⟨hc, hcid⟩ := List.mem_filter.mp hc
      have hname := (hv.named c hc).2.2
      rw [(of_decide_eq_true hcid).2, hrid] at hname
      exact hid hname
    rw [he, readObject, hnone]
    rfl

lemma requireIds_strings {ids : List JsString} (hne : ∀ id ∈ ids, id ≠ []) :
    requireIds (.array (ids.map .string)) = .ok ids := by
  rw [requireIds, List.mapM_map]
  have hids := mapM_ok ((fun v : Value => match v with
    | .string s => if s = [] then throw "vault.getmany@1: ids must be an array of non-empty strings"
      else return s
    | _ => throw "vault.getmany@1: ids must be an array of non-empty strings") ∘ Value.string) id
    fun s hs => if_neg (hne s hs)
  rw [List.map_id] at hids
  exact hids

lemma getmanyOp_eq (v : VaultDB) (ns : Name) {ids : List JsString} (hne : ∀ id ∈ ids, id ≠ []) :
    getmanyOp v (manyPayload ns ids) =
      if ids.eraseDups.length > getManyBound then
        .error ("vault.getmany@1: " ++ toString ids.eraseDups.length ++ " distinct ids exceeds the " ++
          toString getManyBound ++ " bound — page through vault.query@1 + repeated batches")
      else getRows v ns ids [] := by
  have hns : optionalProperty (manyPayload ns ids) "ns" = .string (ofText ns) := by
    rw [optionalProperty, manyPayload, property_head]
  have hids : optionalProperty (manyPayload ns ids) "ids" = .array (ids.map .string) := by
    rw [optionalProperty, manyPayload, property_tail _ _ (by decide), property_head]
  have hobj : requireObject "vault.getmany@1" (manyPayload ns ids) = .ok (manyPayload ns ids) := rfl
  rw [getmanyOp, hobj, ok_bind, hns, requireName_name, ok_bind, hids, requireIds_strings hne, ok_bind]
  by_cases hbound : ids.eraseDups.length > getManyBound
  · rw [if_pos hbound, if_pos hbound]
    rfl
  · rw [if_neg hbound, if_neg hbound, readObjects, if_neg hbound]

lemma getmany_agrees (hr : Readable v) (hv : Consistent v) (ns : Name) {ids : List JsString}
    (hne : ∀ id ∈ ids, id ≠ []) (hbound : ids.eraseDups.length ≤ getManyBound) :
    getmanyOp v (manyPayload ns ids) =
      .ok (ids.eraseDups.map fun id => rowOf id (getOp v (getPayload ns id))) := by
  rw [getmanyOp_eq v ns hne, if_neg (not_lt.mpr hbound), getRows_eq (getRow_eq hr hv ns)]
  simp only [List.not_mem_nil, not_false_eq_true, decide_true, List.filter_true]
  exact congrArg _ (List.map_congr_left fun id _ => (rowOf_getOp hv ns id).symm)

lemma readObject_congr {u : Tables} (h : ∀ ns id rev, readRow u ns id rev = readRow v.tables ns id rev)
    (ns id : String) (rev : Option ℤ) :
    readObject { v with tables := u } ns id rev = readObject v ns id rev := by
  rw [readObject, readObject, h]

lemma getRow_congr {u : Tables} (h : ∀ ns id rev, readRow u ns id rev = readRow v.tables ns id rev)
    (ns : String) (id : JsString) : getRow { v with tables := u } ns id = getRow v ns id := by
  rw [getRow, getRow, h]

lemma getRows_congr {u : Tables} (h : ∀ ns id rev, readRow u ns id rev = readRow v.tables ns id rev)
    (ns : String) (ids seen : List JsString) :
    getRows { v with tables := u } ns ids seen = getRows v ns ids seen := by
  induction ids generalizing seen with
  | nil => rfl
  | cons id rest ih =>
    rw [getRows, getRows, getRow_congr h, ih]
    split_ifs
    · rfl
    · congr 1
      funext row
      rw [ih]

/-- Whatever is asked, the answers are the same. -/
structure SameReads (v w : VaultDB) : Prop where
  get : ∀ payload, getOp w payload = getOp v payload
  getmany : ∀ payload, getmanyOp w payload = getmanyOp v payload
  query : ∀ payload, queryOp w payload = queryOp v payload

lemma Compacted.sameReads {keep now : ℕ} {ns : String} {refs : List String} {keys : List RevKey}
    (h : Compacted ns keep now refs keys v.tables u) (hv : Consistent v) (hkeep : 1 ≤ keep) :
    SameReads v { v with tables := u } := by
  have hrow := h.readRow hv hkeep
  refine ⟨fun payload => ?_, fun payload => ?_, fun payload => ?_⟩
  · unfold getOp
    simp only [readObject_congr hrow]
  · unfold getmanyOp readObjects
    simp only [getRows_congr hrow]
  · unfold queryOp
    simp only [h.queryObjects hv hkeep]

/-- Readers see nothing of a compaction, the rows that must stay hot stay, and a batch of ids reads
as its ids do one by one. -/
theorem compaction_invisible {s : Store} (h : store.Reachable System.free s) (ns : Name)
    (keep : {n : ℤ // 1 ≤ n}) (now : ℕ) (fault : Option (ℕ × String)) :
    SameReads s.vault (compact s.vault ns keep now fault).2 ∧
      (∀ r ∈ s.vault.tables.objects.rows, ∀ o ∈ s.vault.tables.objects.rows, ∀ env,
        parseEnvelope o.metaText = .ok env → ∀ ref ∈ env.refs, r.key = (ref.ns, ref.id, ref.rev) →
          r ∈ (compact s.vault ns keep now fault).2.tables.objects.rows) ∧
      (∀ r ∈ s.vault.tables.objects.rows,
        (((hotRevs s.vault.tables r.ns r.id).filter fun rev => r.rev < rev).length : ℤ) < keep →
          r ∈ (compact s.vault ns keep now fault).2.tables.objects.rows) ∧
      (compact s.vault ns keep now fault).2.tables.changelog = s.vault.tables.changelog ∧
      ∀ (ns : Name) (ids : List JsString), (∀ id ∈ ids, id ≠ []) →
        ids.eraseDups.length ≤ getManyBound →
          getmanyOp s.vault (manyPayload ns ids) =
            .ok (ids.eraseDups.map fun id => rowOf id (getOp s.vault (getPayload ns id))) := by
  have hv := reachable_consistent h
  have hbatch : ∀ (ns : Name) (ids : List JsString), (∀ id ∈ ids, id ≠ []) →
      ids.eraseDups.length ≤ getManyBound → getmanyOp s.vault (manyPayload ns ids) =
        .ok (ids.eraseDups.map fun id => rowOf id (getOp s.vault (getPayload ns id))) :=
    fun ns _ hne hbound => getmany_agrees (reachable_readable h) hv ns hne hbound
  obtain ⟨e, he⟩ | ⟨result, u, refs, keys, hkeep, hc, hok⟩ := compact_cases s.vault ns keep now fault
  · rw [he]
    exact ⟨⟨fun _ => rfl, fun _ => rfl, fun _ => rfl⟩, fun r hr _ _ _ _ _ _ _ => hr,
      fun r hr _ => hr, rfl, hbatch⟩
  · rw [hok]
    exact ⟨hc.sameReads hv (by omega),
      fun r hr o ho env henv ref href hkey => hc.protected hr ho henv href hkey,
      fun r hr hfew => hc.newest hr (by omega), hc.changelog, hbatch⟩

/-- Two revisions of one object, both hot. -/
def twoHot : List Event :=
  [appendEvent "n" "a" "1", appendEvent "n" "a" "2", .turn noFaults 0, .turn noFaults 0]

theorem compaction_invisible_twoHot :
    ∃ s : Store, (compact s.vault "n" 1 7 none).2.tables.objects.rows.map ObjectRow.key =
        [("n", "a", 2)] ∧
      SameReads s.vault (compact s.vault "n" 1 7 none).2 := by
  have hrun : (store.exec System.free ⟨VaultDB.empty, []⟩ twoHot).map (fun s : Store =>
      decide ((compact s.vault "n" 1 7 none).2.tables.objects.rows.map ObjectRow.key =
        [("n", "a", 2)])) = some true := by
    decide +kernel
  obtain ⟨s, hs, hf⟩ := System.exec_spec rfl hrun
  exact ⟨s, of_decide_eq_true hf, (compaction_invisible hs ⟨"n", by decide⟩ ⟨1, le_refl 1⟩ 7 none).1⟩

lemma eraseDups_of_nodup {α : Type} [BEq α] [LawfulBEq α] {xs : List α} (h : xs.Nodup) :
    xs.eraseDups = xs := by
  induction xs with
  | nil => rfl
  | cons x rest ih =>
    obtain ⟨hx, hrest⟩ := List.nodup_cons.mp h
    have hsame : rest.filter (fun b => !b == x) = rest := by
      apply List.filter_eq_self.mpr
      intro b hb
      have hne : b ≠ x := fun he => hx (he ▸ hb)
      simp [hne]
    rw [List.eraseDups_cons, hsame, ih hrest]

lemma getmanyOp_refused (v : VaultDB) (ns : Name) {ids : List JsString} (hne : ∀ id ∈ ids, id ≠ [])
    (hbound : getManyBound < ids.eraseDups.length) :
    ∃ e, getmanyOp v (manyPayload ns ids) = .error e := by
  rw [getmanyOp_eq v ns hne, if_pos hbound]
  exact ⟨_, rfl⟩

/-- Ids that are all different: as many as are asked for. -/
def distinctIds (n : ℕ) : List JsString := (List.range n).map fun i => List.replicate (i + 1) 97

theorem getmany_over_bound :
    ¬ ∀ s, store.Reachable System.free s → ∀ (ns : Name) (ids : List JsString),
      getmanyOp s.vault (manyPayload ns ids) =
        .ok (ids.eraseDups.map fun id => rowOf id (getOp s.vault (getPayload ns id))) := by
  intro h
  have hids : (distinctIds 513).Nodup := by
    refine List.Nodup.map (fun i j hij => ?_) List.nodup_range
    have hlen := congrArg List.length hij
    simpa using hlen
  have hne : ∀ id ∈ distinctIds 513, id ≠ [] := by
    intro id hid
    obtain ⟨i, _, rfl⟩ := List.mem_map.mp hid
    simp
  have hbound : getManyBound < (distinctIds 513).eraseDups.length := by
    rw [eraseDups_of_nodup hids, distinctIds, List.length_map, List.length_range]
    decide
  have hstart : store.Reachable System.free ⟨VaultDB.empty, []⟩ := .start rfl
  obtain ⟨e, he⟩ := getmanyOp_refused VaultDB.empty ⟨"n", by decide⟩ hne hbound
  have hok := h _ hstart ⟨"n", by decide⟩ (distinctIds 513)
  rw [he] at hok
  cases hok

end Reads

end VivimOmega.Vault

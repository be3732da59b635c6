import VivimOmega.Library.Json.Value

/-! Canonical text: members sorted by key, undefined ones dropped. -/

namespace VivimOmega.Library.Json

open Value

section Keys

/-- The order of `sort()`: by code units. -/
def keyLe (a b : JsString) : Prop := a.map UInt16.toNat ≤ b.map UInt16.toNat

instance (a b : JsString) : Decidable (keyLe a b) :=
  inferInstanceAs (Decidable (a.map UInt16.toNat ≤ b.map UInt16.toNat))

lemma keyLe_antisymm {a b : JsString} (hab : keyLe a b) (hba : keyLe b a) : a = b := by
  have hinj : Function.Injective UInt16.toNat := fun _ _ h => UInt16.toNat_inj.mp h
  exact List.map_injective_iff.mpr hinj (le_antisymm hab hba)

variable {α β : Type}

def Before (m n : JsString × α) : Prop := keyLe m.1 n.1

instance (m n : JsString × α) : Decidable (Before m n) := inferInstanceAs (Decidable (keyLe _ _))

instance : Std.Total (Before (α := α)) := ⟨fun _ _ => le_total _ _⟩

instance : IsTrans (JsString × α) Before := ⟨fun _ _ _ => le_trans⟩

def sortKeys (ms : List (JsString × α)) : List (JsString × α) := ms.insertionSort Before

lemma sortKeys_perm (ms : List (JsString × α)) : (sortKeys ms).Perm ms :=
  List.perm_insertionSort _ ms

lemma mem_sortKeys {ms : List (JsString × α)} {m : JsString × α} : m ∈ sortKeys ms ↔ m ∈ ms :=
  List.mem_insertionSort _

lemma keys_sortKeys_nodup {ms : List (JsString × α)} (h : (ms.map Prod.fst).Nodup) :
    ((sortKeys ms).map Prod.fst).Nodup :=
  ((sortKeys_perm ms).map Prod.fst).nodup_iff.mpr h

/-- Sorting looks at the keys alone. -/
lemma sortKeys_map (f : JsString → α → β) (ms : List (JsString × α)) :
    sortKeys (ms.map fun m => (m.1, f m.1 m.2)) = (sortKeys ms).map fun m => (m.1, f m.1 m.2) :=
  (List.map_insertionSort Before Before (fun m => (m.1, f m.1 m.2)) ms fun _ _ _ _ => Iff.rfl).symm

lemma eq_of_key_eq {ms : List (JsString × α)} (h : (ms.map Prod.fst).Nodup) {m n : JsString × α}
    (hm : m ∈ ms) (hn : n ∈ ms) (hkey : m.1 = n.1) : m = n :=
  List.inj_on_of_nodup_map h hm hn hkey

/-- The sorted list depends only on which members there are. -/
lemma sortKeys_eq_iff {ms ns : List (JsString × α)} (hms : (ms.map Prod.fst).Nodup)
    (hns : (ns.map Prod.fst).Nodup) :
    sortKeys ms = sortKeys ns ↔ ∀ m, m ∈ ms ↔ m ∈ ns := by
  constructor
  · intro h m
    rw [← mem_sortKeys, h, mem_sortKeys]
  · intro h
    have hperm : ms.Perm ns :=
      (List.perm_ext_iff_of_nodup (List.Nodup.of_map _ hms) (List.Nodup.of_map _ hns)).mpr h
    refine List.Perm.eq_of_pairwise (fun m n hm hn hmn hnm => ?_)
      (List.pairwise_insertionSort Before ms) (List.pairwise_insertionSort Before ns)
      ((sortKeys_perm ms).trans (hperm.trans (sortKeys_perm ns).symm))
    exact eq_of_key_eq hms (mem_sortKeys.mp hm) ((h n).mpr (mem_sortKeys.mp hn))
      (keyLe_antisymm hmn hnm)

end Keys

section Text

def defined (ms : List (JsString × Value)) : List (JsString × Value) :=
  ms.filter fun m => !m.2.isUndefined

/-- The values without a text. -/
inductive Textless
  | undefined
  | bigint (n : ℤ)

def Textless.typeOf : Textless → String
  | undefined => "undefined"
  | bigint _ => "bigint"

def Textless.shown : Textless → String
  | undefined => "undefined"
  | bigint n => toString n

mutual

/-- The text with sorted keys, where `unsupported` words the refusal of a value without text. -/
def canonicalText (unsupported : Textless → String) : Value → Except String (List Char)
  | undefined => throw (unsupported .undefined)
  | bigint n => throw (unsupported (.bigint n))
  | null => return render null
  | .bool b => return render (.bool b)
  | number n => return render (number n)
  | string s => return render (string s)
  | array items => do
    let texts ← canonicalItems unsupported items
    return '[' :: joined texts ++ [']']
  | object members => do
    let texts ← (sortKeys (canonicalMembers unsupported members)).mapM Prod.snd
    return '{' :: joined texts ++ ['}']

def canonicalItems (unsupported : Textless → String) : List Value → Except String (List (List Char))
  | [] => return []
  | v :: rest => do
    let text ← canonicalText unsupported v
    let texts ← canonicalItems unsupported rest
    return text :: texts

/-- The defined members, each with its text; one that has no text is refused when it is reached. -/
def canonicalMembers (unsupported : Textless → String) :
    List (JsString × Value) → List (JsString × Except String (List Char))
  | [] => []
  | (k, v) :: rest =>
    if v.isUndefined then canonicalMembers unsupported rest
    else (k, (canonicalText unsupported v).map fun text => quote k ++ ':' :: text) ::
      canonicalMembers unsupported rest

end

/-- A JSON value, whose objects may have undefined members. -/
inductive IsJson : Value → Prop
  | null : IsJson null
  | bool (b : Bool) : IsJson (.bool b)
  | number {n : Number} (h : n.IsFinite) : IsJson (number n)
  | string (s : JsString) : IsJson (string s)
  | array {items : List Value} (h : ∀ v ∈ items, IsJson v) : IsJson (array items)
  | object {members : List (JsString × Value)} (hkeys : (members.map Prod.fst).Nodup)
      (h : ∀ m ∈ members, m.2.isUndefined = false → IsJson m.2) : IsJson (object members)

abbrev JsonValue := {v : Value // IsJson v}

mutual

/-- The plain value that the canonical text is the text of. -/
def normal : Value → Value
  | undefined => undefined
  | bigint n => bigint n
  | null => null
  | .bool b => .bool b
  | number n => number n
  | string s => string s
  | array items => array (normalItems items)
  | object members => object (sortKeys (normalMembers members))

def normalItems : List Value → List Value
  | [] => []
  | v :: rest => normal v :: normalItems rest

def normalMembers : List (JsString × Value) → List (JsString × Value)
  | [] => []
  | (k, v) :: rest => if v.isUndefined then normalMembers rest else (k, normal v) :: normalMembers rest

end

lemma normalItems_eq (items : List Value) : normalItems items = items.map normal := by
  induction items with
  | nil => rfl
  | cons v rest ih => rw [normalItems, ih, List.map_cons]

lemma normalMembers_eq (ms : List (JsString × Value)) :
    normalMembers ms = (defined ms).map fun m => (m.1, normal m.2) := by
  induction ms with
  | nil => rfl
  | cons m rest ih =>
    obtain ⟨k, v⟩ := m
    rw [normalMembers, ih]
    cases hv : v.isUndefined <;> simp [defined, hv]

lemma mem_defined {ms : List (JsString × Value)} {m : JsString × Value} :
    m ∈ defined ms ↔ m ∈ ms ∧ m.2.isUndefined = false := by
  simp [defined]

lemma keys_defined_nodup {ms : List (JsString × Value)} (h : (ms.map Prod.fst).Nodup) :
    ((defined ms).map Prod.fst).Nodup :=
  h.sublist (List.Sublist.map _ List.filter_sublist)

lemma keys_map (f : JsString → Value → Value) (ms : List (JsString × Value)) :
    (ms.map fun m => (m.1, f m.1 m.2)).map Prod.fst = ms.map Prod.fst := by
  rw [List.map_map]
  rfl

lemma keys_normalMembers_nodup {ms : List (JsString × Value)} (h : (ms.map Prod.fst).Nodup) :
    ((normalMembers ms).map Prod.fst).Nodup := by
  rw [normalMembers_eq, keys_map fun _ v => normal v]
  exact keys_defined_nodup h

lemma mem_normalMembers {ms : List (JsString × Value)} {n : JsString × Value} :
    n ∈ normalMembers ms ↔ ∃ m ∈ defined ms, n = (m.1, normal m.2) := by
  rw [normalMembers_eq, List.mem_map]
  simp only [eq_comm]

lemma renderMembers_eq (ms : List (JsString × Value)) :
    renderMembers ms = ms.map fun m => quote m.1 ++ ':' :: m.2.render := by
  induction ms with
  | nil => rfl
  | cons m rest ih =>
    obtain ⟨k, v⟩ := m
    rw [renderMembers, ih, List.map_cons]

/-- What is normal is plain. -/
lemma IsJson.plain {v : Value} (h : IsJson v) : Plain (normal v) := by
  induction h with
  | null => exact .null
  | bool b => exact .bool b
  | number hn => exact .number hn
  | string s => exact .string s
  | array _ ih =>
    rw [normal, normalItems_eq]
    apply Plain.array
    intro w hw
    obtain ⟨v, hv, rfl⟩ := List.mem_map.mp hw
    exact ih v hv
  | object hkeys _ ih =>
    rw [normal]
    apply Plain.object (keys_sortKeys_nodup (keys_normalMembers_nodup hkeys))
    intro n hn
    obtain ⟨m, hm, rfl⟩ := mem_normalMembers.mp (mem_sortKeys.mp hn)
    obtain ⟨hmem, hdef⟩ := mem_defined.mp hm
    exact ih m hmem hdef

lemma canonicalMembers_eq (unsupported : Textless → String) (ms : List (JsString × Value)) :
    canonicalMembers unsupported ms = (defined ms).map fun m =>
      (m.1, (canonicalText unsupported m.2).map fun text => quote m.1 ++ ':' :: text) := by
  induction ms with
  | nil => rfl
  | cons m rest ih =>
    obtain ⟨k, v⟩ := m
    rw [canonicalMembers, ih]
    cases hv : v.isUndefined <;> simp [defined, hv]

lemma canonicalItems_ok {unsupported : Textless → String} {items : List Value}
    (h : ∀ v ∈ items, canonicalText unsupported v = .ok (normal v).render) :
    canonicalItems unsupported items = .ok (renderItems (normalItems items)) := by
  induction items with
  | nil => rfl
  | cons v rest ih =>
    obtain ⟨hv, hrest⟩ := List.forall_mem_cons.mp h
    rw [canonicalItems, hv, ih hrest]
    rfl

lemma mapM_ok {α β : Type} (f : α → Except String β) (g : α → β) {xs : List α}
    (h : ∀ x ∈ xs, f x = .ok (g x)) : xs.mapM f = .ok (xs.map g) := by
  induction xs with
  | nil => rfl
  | cons x rest ih =>
    obtain ⟨hx, hrest⟩ := List.forall_mem_cons.mp h
    rw [List.mapM_cons, hx, ih hrest]
    rfl

/-- Every JSON value has a canonical text: that of its normal value. -/
lemma IsJson.canonicalText {v : Value} (h : IsJson v) (unsupported : Textless → String) :
    canonicalText unsupported v = .ok (normal v).render := by
  induction h with
  | null => rw [Json.canonicalText, normal]; rfl
  | bool b => rw [Json.canonicalText, normal]; rfl
  | number hn => rw [Json.canonicalText, normal]; rfl
  | string s => rw [Json.canonicalText, normal]; rfl
  | array _ ih =>
    rw [Json.canonicalText, canonicalItems_ok ih, normal, render]
    rfl
  | @object ms hkeys _ ih =>
    have hsorted : ∀ m ∈ sortKeys (defined ms),
        (Json.canonicalText unsupported m.2).map (fun text => quote m.1 ++ ':' :: text) =
          .ok (quote m.1 ++ ':' :: (normal m.2).render) := by
      intro m hm
      obtain ⟨hmem, hdef⟩ := mem_defined.mp (mem_sortKeys.mp hm)
      rw [ih m hmem hdef]
      rfl
    let textOf (k : JsString) (v : Value) :=
      (Json.canonicalText unsupported v).map fun text => quote k ++ ':' :: text
    have htexts := mapM_ok (Prod.snd ∘ fun m : JsString × Value => (m.1, textOf m.1 m.2)) _ hsorted
    rw [Json.canonicalText, canonicalMembers_eq, sortKeys_map textOf, List.mapM_map, htexts, normal,
      render, normalMembers_eq, sortKeys_map fun _ v => normal v, renderMembers_eq, List.map_map]
    rfl

end Text

lemma toOption_bind {α β : Type} (x : Except String α) (f : α → Except String β) :
    (x >>= f).toOption = x.toOption >>= fun a => (f a).toOption := by
  cases x <;> rfl

lemma toOption_map {α β : Type} (f : α → β) (x : Except String α) :
    (x.map f).toOption = x.toOption.map f := by
  cases x <;> rfl

lemma toOption_mapM {α β : Type} (f : α → Except String β) (xs : List α) :
    (xs.mapM f).toOption = xs.mapM fun x => (f x).toOption := by
  induction xs with
  | nil => rfl
  | cons x rest ih =>
    rw [List.mapM_cons, List.mapM_cons, toOption_bind]
    congr 1
    funext y
    rw [toOption_bind, ih]
    rfl

section Agreement

/-- Equal up to the order of object keys and dropped undefined members. -/
inductive Agrees : Value → Value → Prop
  | null : Agrees null null
  | bool (b : Bool) : Agrees (.bool b) (.bool b)
  | number (n : Number) : Agrees (number n) (number n)
  | string (s : JsString) : Agrees (string s) (string s)
  | array {xs ys : List Value} (hlen : xs.length = ys.length)
      (h : ∀ p ∈ xs.zip ys, Agrees p.1 p.2) : Agrees (array xs) (array ys)
  | object {ms ns : List (JsString × Value)}
      (hkeys : ∀ k, k ∈ (defined ms).map Prod.fst ↔ k ∈ (defined ns).map Prod.fst)
      (h : ∀ m ∈ defined ms, ∀ n ∈ defined ns, m.1 = n.1 → Agrees m.2 n.2) :
      Agrees (object ms) (object ns)

lemma map_normal_eq {xs ys : List Value} (hlen : xs.length = ys.length)
    (h : ∀ p ∈ xs.zip ys, normal p.1 = normal p.2) : xs.map normal = ys.map normal := by
  induction xs generalizing ys with
  | nil =>
    cases ys with
    | nil => rfl
    | cons y ys => cases hlen
  | cons x xs ih =>
    cases ys with
    | nil => cases hlen
    | cons y ys =>
      obtain ⟨hx, hrest⟩ := List.forall_mem_cons.mp h
      rw [List.map_cons, List.map_cons, ih (Nat.succ.inj hlen) hrest, hx]

lemma mem_normalMembers_of_agrees {ms ns : List (JsString × Value)}
    (hkeys : ∀ k ∈ (defined ms).map Prod.fst, k ∈ (defined ns).map Prod.fst)
    (h : ∀ m ∈ defined ms, ∀ n ∈ defined ns, m.1 = n.1 → normal m.2 = normal n.2)
    {m : JsString × Value} (hm : m ∈ normalMembers ms) : m ∈ normalMembers ns := by
  obtain ⟨m, hmem, rfl⟩ := mem_normalMembers.mp hm
  obtain ⟨n, hn, hkey⟩ := List.mem_map.mp (hkeys m.1 (List.mem_map_of_mem hmem))
  rw [h m hmem n hn hkey.symm, ← hkey]
  exact mem_normalMembers.mpr ⟨n, hn, rfl⟩

lemma Agrees.normal_eq {u v : Value} (hu : IsJson u) (hv : IsJson v) (h : Agrees u v) :
    normal u = normal v := by
  induction h with
  | null => rfl
  | bool b => rfl
  | number n => rfl
  | string s => rfl
  | array hlen _ ih =>
    cases hu with
    | array hxs =>
      cases hv with
      | array hys =>
        rw [normal, normal, normalItems_eq, normalItems_eq]
        congr 1
        refine map_normal_eq hlen fun p hp => ih p hp ?_ ?_
        · exact hxs _ (List.of_mem_zip hp).1
        · exact hys _ (List.of_mem_zip hp).2
  | @object ms ns hkeys _ ih =>
    cases hu with
    | object hmkeys hms =>
      cases hv with
      | object hnkeys hns =>
        have hnormal : ∀ m ∈ defined ms, ∀ n ∈ defined ns, m.1 = n.1 → normal m.2 = normal n.2 := by
          intro m hm n hn hkey
          obtain ⟨hmem, hmdef⟩ := mem_defined.mp hm
          obtain ⟨hnem, hndef⟩ := mem_defined.mp hn
          exact ih m hm n hn hkey (hms m hmem hmdef) (hns n hnem hndef)
        rw [normal, normal]
        congr 1
        apply (sortKeys_eq_iff (keys_normalMembers_nodup hmkeys) (keys_normalMembers_nodup hnkeys)).mpr
        intro m
        constructor
        · exact mem_normalMembers_of_agrees (fun k hk => (hkeys k).mp hk) hnormal
        · exact mem_normalMembers_of_agrees (fun k hk => (hkeys k).mpr hk)
            fun n hn m hm hkey => (hnormal m hm n hn hkey.symm).symm

lemma agrees_of_normal_eq {u v : Value} (hu : IsJson u) (hv : IsJson v)
    (h : normal u = normal v) : Agrees u v := by
  induction hu generalizing v with
  | null => cases hv <;> simp [normal] at h; exact .null
  | bool b => cases hv <;> simp [normal] at h; subst h; exact .bool b
  | @number n hn => cases hv <;> simp [normal] at h; subst h; exact .number n
  | string s => cases hv <;> simp [normal] at h; subst h; exact .string s
  | @array xs hxs ih =>
    cases hv with
    | @array ys hys =>
      rw [normal, normal, normalItems_eq, normalItems_eq, Value.array.injEq] at h
      have hlen : xs.length = ys.length := by
        simpa only [List.length_map] using congrArg List.length h
      refine .array hlen fun p hp => ?_
      obtain ⟨i, hi, rfl⟩ := List.getElem_of_mem hp
      have hi' : i < xs.length ∧ i < ys.length := by
        rw [List.length_zip] at hi
        omega
      rw [List.getElem_zip]
      refine ih _ (List.getElem_mem hi'.1) (hys _ (List.getElem_mem hi'.2)) ?_
      have hget := congrArg (fun l => l[i]?) h
      simpa [hi'.1, hi'.2] using hget
    | _ => simp [normal] at h
  | @object ms hmkeys hms ih =>
    cases hv with
    | @object ns hnkeys hns =>
      rw [normal, normal, Value.object.injEq, sortKeys_eq_iff (keys_normalMembers_nodup hmkeys)
        (keys_normalMembers_nodup hnkeys)] at h
      have hkeys : ∀ k, k ∈ (defined ms).map Prod.fst ↔ k ∈ (defined ns).map Prod.fst := by
        intro k
        rw [← keys_map fun _ v => normal v, ← normalMembers_eq, ← keys_map (fun _ v => normal v)
          (defined ns), ← normalMembers_eq, List.mem_map, List.mem_map]
        simp only [h]
      refine .object hkeys fun m hm n hn hkey => ?_
      obtain ⟨hmem, hmdef⟩ := mem_defined.mp hm
      obtain ⟨hnem, hndef⟩ := mem_defined.mp hn
      refine ih m hmem hmdef (hns n hnem hndef) ?_
      have hleft := (h (m.1, normal m.2)).mp (mem_normalMembers.mpr ⟨m, hm, rfl⟩)
      have hright := mem_normalMembers.mpr ⟨n, hn, rfl⟩
      have hsame := eq_of_key_eq (keys_normalMembers_nodup hnkeys) hleft hright hkey
      exact congrArg Prod.snd hsame
    | _ => simp [normal] at h

lemma agrees_iff {u v : Value} (hu : IsJson u) (hv : IsJson v) :
    Agrees u v ↔ normal u = normal v :=
  ⟨Agrees.normal_eq hu hv, agrees_of_normal_eq hu hv⟩

/-- Two JSON values have one canonical text exactly when they agree. -/
lemma canonicalText_eq_iff (unsupported : Textless → String) {u v : Value} (hu : IsJson u)
    (hv : IsJson v) : canonicalText unsupported u = canonicalText unsupported v ↔ Agrees u v := by
  rw [hu.canonicalText, hv.canonicalText, agrees_iff hu hv, Except.ok.injEq]
  constructor
  · exact render_injective hu.plain hv.plain
  · intro h
    rw [h]

lemma Value.Plain.isJson {v : Value} (h : Plain v) : IsJson v := by
  induction h with
  | null => exact .null
  | bool b => exact .bool b
  | number hn => exact .number hn
  | string s => exact .string s
  | array _ ih => exact .array ih
  | object hkeys _ ih => exact .object hkeys fun m hm _ => ih m hm

lemma Value.Plain.isUndefined {v : Value} (h : Plain v) : v.isUndefined = false := by
  cases h <;> rfl

lemma defined_of_plain {ms : List (JsString × Value)} (h : ∀ m ∈ ms, Plain m.2) :
    defined ms = ms :=
  List.filter_eq_self.mpr fun m hm => by rw [(h m hm).isUndefined]; rfl

/-- A value agrees with its normal form. -/
lemma IsJson.agrees_normal {v : Value} (h : IsJson v) : Agrees v (normal v) := by
  induction h with
  | null => exact .null
  | bool b => exact .bool b
  | @number n hn => exact .number n
  | string s => exact .string s
  | @array items hitems ih =>
    rw [normal, normalItems_eq]
    refine .array (List.length_map normal).symm fun p hp => ?_
    rw [List.zip_map_right, List.mem_map] at hp
    obtain ⟨q, hq, rfl⟩ := hp
    obtain ⟨x, hx, rfl⟩ : ∃ x ∈ items, q = (x, x) := by
      rw [List.zip_eq_zipWith, List.zipWith_self, List.mem_map] at hq
      obtain ⟨x, hx, rfl⟩ := hq
      exact ⟨x, hx, rfl⟩
    exact ih x hx
  | @object ms hkeys hms ih =>
    have hplain : ∀ m ∈ sortKeys (normalMembers ms), Plain m.2 := by
      intro n hn
      obtain ⟨m, hm, rfl⟩ := mem_normalMembers.mp (mem_sortKeys.mp hn)
      obtain ⟨hmem, hdef⟩ := mem_defined.mp hm
      exact (hms m hmem hdef).plain
    have hmem : ∀ n, n ∈ defined (sortKeys (normalMembers ms)) ↔ n ∈ normalMembers ms := by
      intro n
      rw [defined_of_plain hplain, mem_sortKeys]
    rw [normal]
    refine .object (fun k => ?_) fun m hm n hn hkey => ?_
    · rw [← keys_map fun _ v => normal v, ← normalMembers_eq, List.mem_map, List.mem_map]
      simp only [hmem]
    · obtain ⟨m', hm', rfl⟩ := mem_normalMembers.mp ((hmem n).mp hn)
      have hsame := eq_of_key_eq (keys_defined_nodup hkeys) hm hm' hkey
      subst hsame
      obtain ⟨hmem', hdef⟩ := mem_defined.mp hm
      exact ih m hmem' hdef

mutual

/-- How a refusal is worded does not change which values have a text. -/
lemma canonicalText_toOption (f g : Textless → String) :
    ∀ v, (canonicalText f v).toOption = (canonicalText g v).toOption
  | undefined => by rw [canonicalText, canonicalText]; rfl
  | bigint n => by rw [canonicalText, canonicalText]; rfl
  | null => by rw [canonicalText, canonicalText]
  | .bool b => by rw [canonicalText, canonicalText]
  | number n => by rw [canonicalText, canonicalText]
  | string s => by rw [canonicalText, canonicalText]
  | array items => by
    rw [canonicalText, canonicalText, toOption_bind, toOption_bind, canonicalItems_toOption f g items]
  | object members => by
    have htexts : ∀ h : Textless → String,
        ((sortKeys (canonicalMembers h members)).mapM Prod.snd).toOption =
          (sortKeys ((canonicalMembers h members).map fun m => (m.1, m.2.toOption))).mapM Prod.snd := by
      intro h
      rw [toOption_mapM, sortKeys_map fun _ text => Except.toOption text, List.mapM_map]
      rfl
    rw [canonicalText, canonicalText, toOption_bind, toOption_bind, htexts, htexts,
      canonicalMembers_toOption f g members]

lemma canonicalItems_toOption (f g : Textless → String) :
    ∀ vs, (canonicalItems f vs).toOption = (canonicalItems g vs).toOption
  | [] => rfl
  | v :: rest => by
    rw [canonicalItems, canonicalItems, toOption_bind, toOption_bind, canonicalText_toOption f g v]
    congr 1
    funext text
    rw [toOption_bind, toOption_bind, canonicalItems_toOption f g rest]

lemma canonicalMembers_toOption (f g : Textless → String) :
    ∀ ms, (canonicalMembers f ms).map (fun m => (m.1, m.2.toOption)) =
      (canonicalMembers g ms).map fun m => (m.1, m.2.toOption)
  | [] => rfl
  | (k, v) :: rest => by
    rw [canonicalMembers, canonicalMembers]
    split_ifs
    · exact canonicalMembers_toOption f g rest
    · rw [List.map_cons, List.map_cons, canonicalMembers_toOption f g rest, toOption_map, toOption_map,
        canonicalText_toOption f g v]

end

end Agreement

end VivimOmega.Library.Json

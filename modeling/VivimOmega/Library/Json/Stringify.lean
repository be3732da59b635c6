import VivimOmega.Library.Json.Canonical

/-! `JSON.stringify` of values as they come, and reading the properties of a parsed one. -/

namespace VivimOmega.Library.Json

open Value

/-- No object has a key twice. -/
inductive Keyed : Value → Prop
  | undefined : Keyed undefined
  | bigint (n : ℤ) : Keyed (bigint n)
  | null : Keyed null
  | bool (b : Bool) : Keyed (.bool b)
  | number (n : Number) : Keyed (number n)
  | string (s : JsString) : Keyed (string s)
  | array {items : List Value} (h : ∀ v ∈ items, Keyed v) : Keyed (array items)
  | object {members : List (JsString × Value)} (hkeys : (members.map Prod.fst).Nodup)
      (h : ∀ m ∈ members, Keyed m.2) : Keyed (object members)

abbrev KeyedValue := {v : Value // Keyed v}

mutual

/-- The plain value that is written for an item or a member. -/
def serialized : Value → Except String Value
  | undefined => return null
  | bigint _ => throw "TypeError: Do not know how to serialize a BigInt"
  | null => return null
  | .bool b => return .bool b
  | number n => return if n.IsFinite then number n else null
  | string s => return string s
  | array items => do
    let items ← serializedItems items
    return array items
  | object members => do
    let members ← serializedMembers members
    return object members

def serializedItems : List Value → Except String (List Value)
  | [] => return []
  | v :: rest => do
    let item ← serialized v
    let items ← serializedItems rest
    return item :: items

def serializedMembers : List (JsString × Value) → Except String (List (JsString × Value))
  | [] => return []
  | (k, v) :: rest =>
    if v.isUndefined then serializedMembers rest
    else do
      let member ← serialized v
      let members ← serializedMembers rest
      return (k, member) :: members

end

/-- `JSON.stringify` of a value that is not undefined. -/
def stringify (v : Value) : Except String String :=
  (serialized v).map fun w => String.ofList w.render

mutual

/-- The text of a plain value that stands so far in, two columns deeper at each level. -/
def prettyText (depth : ℕ) : Value → List Char
  | array items =>
    if items.isEmpty then ['[', ']']
    else '[' :: '\n' :: [',', '\n'].intercalate (prettyItems (depth + 2) items) ++
      '\n' :: List.replicate depth ' ' ++ [']']
  | object members =>
    if members.isEmpty then ['{', '}']
    else '{' :: '\n' :: [',', '\n'].intercalate (prettyMembers (depth + 2) members) ++
      '\n' :: List.replicate depth ' ' ++ ['}']
  | v => v.render

def prettyItems (depth : ℕ) : List Value → List (List Char)
  | [] => []
  | v :: rest => (List.replicate depth ' ' ++ prettyText depth v) :: prettyItems depth rest

def prettyMembers (depth : ℕ) : List (JsString × Value) → List (List Char)
  | [] => []
  | (k, v) :: rest =>
    (List.replicate depth ' ' ++ quote k ++ ':' :: ' ' :: prettyText depth v) :: prettyMembers depth rest

end

/-- `JSON.stringify(v, null, 2)` -/
def stringifyPretty (v : Value) : Except String String :=
  (serialized v).map fun w => String.ofList (prettyText 0 w)

lemma ok_bind {α β : Type} (a : α) (f : α → Except String β) : (Except.ok a >>= f) = f a := rfl

lemma bind_eq_ok {α β : Type} {x : Except String α} {f : α → Except String β} {b : β}
    (h : x >>= f = .ok b) : ∃ a, x = .ok a ∧ f a = .ok b := by
  cases x with
  | error e => cases h
  | ok a => exact ⟨a, rfl, h⟩

lemma ok_of_toOption {α β : Type} {x : Except String α} {f : α → β} {b : β}
    (h : x.toOption.map f = some b) : ∃ a, x = .ok a ∧ f a = b := by
  cases x with
  | error err => cases h
  | ok a => exact ⟨a, rfl, Option.some.inj h⟩

lemma plain_items {items ws : List Value}
    (hplain : ∀ v ∈ items, ∀ w, serialized v = .ok w → Plain w)
    (h : serializedItems items = .ok ws) : ∀ w ∈ ws, Plain w := by
  induction items generalizing ws with
  | nil => cases h; simp
  | cons v rest ih =>
    obtain ⟨hv, hrest⟩ := List.forall_mem_cons.mp hplain
    rw [serializedItems] at h
    obtain ⟨w, hw, h⟩ := bind_eq_ok h
    obtain ⟨tail, htail, h⟩ := bind_eq_ok h
    cases h
    exact List.forall_mem_cons.mpr ⟨hv w hw, ih hrest htail⟩

lemma plain_members {members ws : List (JsString × Value)}
    (hplain : ∀ m ∈ members, ∀ w, serialized m.2 = .ok w → Plain w)
    (h : serializedMembers members = .ok ws) :
    (ws.map Prod.fst).Sublist (members.map Prod.fst) ∧ ∀ m ∈ ws, Plain m.2 := by
  induction members generalizing ws with
  | nil => cases h; simp
  | cons m rest ih =>
    obtain ⟨k, v⟩ := m
    obtain ⟨hv, hrest⟩ := List.forall_mem_cons.mp hplain
    rw [serializedMembers] at h
    split_ifs at h
    · obtain ⟨hsub, hall⟩ := ih hrest h
      exact ⟨hsub.cons k, hall⟩
    · obtain ⟨w, hw, h⟩ := bind_eq_ok h
      obtain ⟨tail, htail, h⟩ := bind_eq_ok h
      cases h
      obtain ⟨hsub, hall⟩ := ih hrest htail
      exact ⟨hsub.cons_cons k, List.forall_mem_cons.mpr ⟨hv w hw, hall⟩⟩

lemma Keyed.plain {v w : Value} (hv : Keyed v) (h : serialized v = .ok w) : Plain w := by
  induction hv generalizing w with
  | undefined => rw [serialized] at h; cases h; exact .null
  | bigint n => rw [serialized] at h; cases h
  | null => rw [serialized] at h; cases h; exact .null
  | bool b => rw [serialized] at h; cases h; exact .bool b
  | number n =>
    rw [serialized] at h
    cases h
    split_ifs with hn
    · exact .number hn
    · exact .null
  | string s => rw [serialized] at h; cases h; exact .string s
  | array _ ih =>
    rw [serialized] at h
    obtain ⟨ws, hws, h⟩ := bind_eq_ok h
    cases h
    exact .array (plain_items (fun v hv w hw => ih v hv hw) hws)
  | object hkeys _ ih =>
    rw [serialized] at h
    obtain ⟨ws, hws, h⟩ := bind_eq_ok h
    cases h
    obtain ⟨hsub, hall⟩ := plain_members (fun m hm w hw => ih m hm hw) hws
    exact .object (hkeys.sublist hsub) hall

/-- What is written parses back to what was written. -/
lemma parse_stringify {v : Value} (hv : Keyed v) {text : String} (h : stringify v = .ok text) :
    ∃ w, serialized v = .ok w ∧ parse text.toList = some w := by
  unfold stringify at h
  cases hs : serialized v with
  | error e => rw [hs] at h; cases h
  | ok w =>
    rw [hs] at h
    cases h
    exact ⟨w, rfl, by rw [String.toList_ofList]; exact parse_render (hv.plain hs)⟩

/-- Reading a property: only `undefined` and `null` refuse. -/
def property (v : Value) (name : String) : Except String Value :=
  match v with
  | undefined => throw ("TypeError: undefined has no property " ++ name)
  | null => throw ("TypeError: null has no property " ++ name)
  | object members =>
    return ((members.find? fun m => m.1 = ofText name).map Prod.snd).getD undefined
  | _ => return undefined

/-- Reading with `?.`, which nothing refuses. -/
def optionalProperty (v : Value) (name : String) : Value :=
  match property v name with
  | .ok w => w
  | .error _ => .undefined

lemma Keyed.optionalProperty {v : Value} (hv : Keyed v) (name : String) :
    Keyed (optionalProperty v name) := by
  cases hv with
  | @object members hkeys h =>
    have hread : Json.optionalProperty (.object members) name =
        ((members.find? fun m => m.1 = ofText name).map Prod.snd).getD .undefined := rfl
    rw [hread]
    cases hfind : members.find? fun m => m.1 = ofText name with
    | none => exact .undefined
    | some m => exact h m (List.mem_of_find?_eq_some hfind)
  | _ => exact .undefined

def KeyedValue.property (v : KeyedValue) (name : String) : KeyedValue :=
  ⟨optionalProperty v.1 name, v.2.optionalProperty name⟩

mutual

/-- `String(value)`. -/
def jsString : Value → String
  | .undefined => "undefined"
  | .null => "null"
  | .bool b => if b then "true" else "false"
  | .bigint n => toString n
  | .number .nan => "NaN"
  | .number (.infinity negative) => if negative then "-Infinity" else "Infinity"
  | .number n => String.ofList n.text
  | .string s => toText s
  | .array items => ",".intercalate (jsStrings items)
  | .object _ => "[object Object]"

def jsStrings : List Value → List String
  | [] => []
  | .undefined :: rest => "" :: jsStrings rest
  | .null :: rest => "" :: jsStrings rest
  | v :: rest => jsString v :: jsStrings rest

end

/-- The text of a value that is not JSON throughout is the text of a plain one all the same. -/
def Written (text : List Char) : Prop := ∃ w, Plain w ∧ w.render = text

lemma written_items {unsupported : Textless → String} {items : List Value} {texts : List (List Char)}
    (hitems : ∀ v ∈ items, ∀ text, canonicalText unsupported v = .ok text → Written text)
    (h : canonicalItems unsupported items = .ok texts) :
    ∃ ws, (∀ w ∈ ws, Plain w) ∧ renderItems ws = texts := by
  induction items generalizing texts with
  | nil => cases h; exact ⟨[], by simp, rfl⟩
  | cons v rest ih =>
    obtain ⟨hv, hrest⟩ := List.forall_mem_cons.mp hitems
    rw [canonicalItems] at h
    obtain ⟨text, htext, h⟩ := bind_eq_ok h
    obtain ⟨tail, htail, h⟩ := bind_eq_ok h
    cases h
    obtain ⟨w, hw, rfl⟩ := hv text htext
    obtain ⟨ws, hws, rfl⟩ := ih hrest htail
    exact ⟨w :: ws, List.forall_mem_cons.mpr ⟨hw, hws⟩, rfl⟩

lemma written_members {entries : List (JsString × Except String (List Char))}
    {texts : List (List Char)}
    (hentries : ∀ m ∈ entries, ∀ text, m.2 = .ok text →
      ∃ w, Plain w ∧ quote m.1 ++ ':' :: w.render = text)
    (h : entries.mapM Prod.snd = .ok texts) :
    ∃ ws : List (JsString × Value), ws.map Prod.fst = entries.map Prod.fst ∧
      (∀ m ∈ ws, Plain m.2) ∧ renderMembers ws = texts := by
  induction entries generalizing texts with
  | nil => cases h; exact ⟨[], rfl, by simp, rfl⟩
  | cons m rest ih =>
    obtain ⟨hm, hrest⟩ := List.forall_mem_cons.mp hentries
    rw [List.mapM_cons] at h
    obtain ⟨text, htext, h⟩ := bind_eq_ok h
    obtain ⟨tail, htail, h⟩ := bind_eq_ok h
    cases h
    obtain ⟨w, hw, rfl⟩ := hm text htext
    obtain ⟨ws, hkeys, hws, rfl⟩ := ih hrest htail
    refine ⟨(m.1, w) :: ws, ?_, List.forall_mem_cons.mpr ⟨hw, hws⟩, rfl⟩
    rw [List.map_cons, List.map_cons, hkeys]

lemma Keyed.written {v : Value} (hv : Keyed v) {unsupported : Textless → String} {text : List Char}
    (h : canonicalText unsupported v = .ok text) : Written text := by
  induction hv generalizing text with
  | undefined => rw [canonicalText] at h; cases h
  | bigint n => rw [canonicalText] at h; cases h
  | null => rw [canonicalText] at h; cases h; exact ⟨_, .null, rfl⟩
  | bool b => rw [canonicalText] at h; cases h; exact ⟨_, .bool b, rfl⟩
  | number n =>
    rw [canonicalText] at h
    cases h
    by_cases hn : n.IsFinite
    · exact ⟨_, .number hn, rfl⟩
    · refine ⟨_, .null, ?_⟩
      cases n with
      | nan => rfl
      | infinity s => rfl
      | _ => exact absurd trivial hn
  | string s => rw [canonicalText] at h; cases h; exact ⟨_, .string s, rfl⟩
  | array _ ih =>
    rw [canonicalText] at h
    obtain ⟨texts, htexts, h⟩ := bind_eq_ok h
    cases h
    obtain ⟨ws, hws, rfl⟩ := written_items (fun v hv text ht => ih v hv ht) htexts
    exact ⟨_, .array hws, rfl⟩
  | @object members hkeys _ ih =>
    rw [canonicalText] at h
    obtain ⟨texts, htexts, h⟩ := bind_eq_ok h
    cases h
    have hentries : ∀ m ∈ sortKeys (canonicalMembers unsupported members), ∀ text, m.2 = .ok text →
        ∃ w, Plain w ∧ quote m.1 ++ ':' :: w.render = text := by
      intro m hm text htext
      rw [canonicalMembers_eq] at hm
      obtain ⟨n, hn, rfl⟩ := List.mem_map.mp (mem_sortKeys.mp hm)
      dsimp only at htext ⊢
      cases hinner : canonicalText unsupported n.2 with
      | error e => rw [hinner] at htext; cases htext
      | ok inner =>
        rw [hinner] at htext
        cases htext
        obtain ⟨w, hw, rfl⟩ := ih n (mem_defined.mp hn).1 hinner
        exact ⟨w, hw, rfl⟩
    obtain ⟨ws, hws, hplain, rfl⟩ := written_members hentries htexts
    refine ⟨_, .object ?_ hplain, rfl⟩
    rw [hws]
    apply keys_sortKeys_nodup
    rw [canonicalMembers_eq, List.map_map]
    exact keys_defined_nodup hkeys

lemma toText_ofText (s : String) : toText (ofText s) = s := by
  have hchars : ∀ cs : List Char, wellFormed (cs.flatMap units) = cs := by
    intro cs
    induction cs with
    | nil => rfl
    | cons c cs ih =>
      rw [List.flatMap_cons]
      exact wellFormed_units c ih
  rw [toText, ofText, hchars, String.ofList_toList]

lemma ofText_injective : Function.Injective ofText :=
  Function.LeftInverse.injective toText_ofText

end VivimOmega.Library.Json

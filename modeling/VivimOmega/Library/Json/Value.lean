import VivimOmega.Library.Json.Number
import VivimOmega.Library.Json.Quoting

/-! JSON values, their text and its parser. -/

namespace VivimOmega.Library.Json

/-- What a structured clone carries: the JSON values, and the two that JSON has no text for. -/
inductive Value
  | undefined
  | bigint (n : ℤ)
  | null
  | bool (b : Bool)
  | number (n : Number)
  | string (s : JsString)
  | array (items : List Value)
  | object (members : List (JsString × Value))

namespace Value

def isUndefined : Value → Bool
  | undefined => true
  | _ => false

/-- A value that is its own JSON: nothing to drop, and no key twice. -/
inductive Plain : Value → Prop
  | null : Plain null
  | bool (b : Bool) : Plain (bool b)
  | number {n : Number} (h : n.IsFinite) : Plain (number n)
  | string (s : JsString) : Plain (string s)
  | array {items : List Value} (h : ∀ v ∈ items, Plain v) : Plain (array items)
  | object {members : List (JsString × Value)} (hkeys : (members.map Prod.fst).Nodup)
      (h : ∀ m ∈ members, Plain m.2) : Plain (object members)

def boolText (b : Bool) : List Char := if b then ['t', 'r', 'u', 'e'] else ['f', 'a', 'l', 's', 'e']

def joined : List (List Char) → List Char
  | [] => []
  | [t] => t
  | t :: u :: rest => t ++ ',' :: joined (u :: rest)

mutual

/-- `JSON.stringify` of a plain value. -/
def render : Value → List Char
  | undefined => []
  | bigint _ => []
  | null => ['n', 'u', 'l', 'l']
  | bool b => boolText b
  | number n => n.text
  | string s => quote s
  | array items => '[' :: joined (renderItems items) ++ [']']
  | object members => '{' :: joined (renderMembers members) ++ ['}']

def renderItems : List Value → List (List Char)
  | [] => []
  | v :: rest => v.render :: renderItems rest

def renderMembers : List (JsString × Value) → List (List Char)
  | [] => []
  | (k, v) :: rest => (quote k ++ ':' :: v.render) :: renderMembers rest

end

end Value

section Parser

open Value

def isSpace (c : Char) : Bool := c = ' ' || c = '\t' || c = '\n' || c = '\r'

def skipSpace (cs : List Char) : List Char := cs.dropWhile isSpace

/-- Assigning to a key that is there keeps its place. -/
def assign (members : List (JsString × Value)) (k : JsString) (v : Value) :
    List (JsString × Value) :=
  if k ∈ members.map Prod.fst then members.map fun m => if m.1 = k then (k, v) else m
  else members ++ [(k, v)]

def literal? (word : List Char) (v : Value) (cs : List Char) : Option (Value × List Char) :=
  if word.isPrefixOf cs then some (v, cs.drop word.length) else none

mutual

def parseValue : ℕ → List Char → Option (Value × List Char)
  | 0, _ => none
  | fuel + 1, cs =>
    match skipSpace cs with
    | [] => none
    | c :: rest =>
      if c = 'n' then literal? ['n', 'u', 'l', 'l'] null (c :: rest)
      else if c = 't' then literal? (boolText true) (bool true) (c :: rest)
      else if c = 'f' then literal? (boolText false) (bool false) (c :: rest)
      else if c = '"' then (unquote rest).map fun r => (string r.1, r.2)
      else if c = '[' then
        if (skipSpace rest).head? = some ']' then some (array [], (skipSpace rest).tail)
        else (parseItems fuel rest).map fun r => (array r.1, r.2)
      else if c = '{' then
        if (skipSpace rest).head? = some '}' then some (object [], (skipSpace rest).tail)
        else (parseMembers fuel [] rest).map fun r => (object r.1, r.2)
      else (parseNumber (c :: rest)).map fun r => (number r.1, r.2)

/-- Reads the items of an array up to its closing bracket. -/
def parseItems : ℕ → List Char → Option (List Value × List Char)
  | 0, _ => none
  | fuel + 1, cs => do
    let (v, afterValue) ← parseValue fuel cs
    match skipSpace afterValue with
    | ',' :: rest => do
      let (items, left) ← parseItems fuel rest
      return (v :: items, left)
    | ']' :: rest => return ([v], rest)
    | _ => none

/-- Reads the members of an object up to its closing brace, where the last of equal keys wins. -/
def parseMembers : ℕ → List (JsString × Value) → List Char →
    Option (List (JsString × Value) × List Char)
  | 0, _, _ => none
  | fuel + 1, members, cs =>
    match skipSpace cs with
    | '"' :: opened => do
      let (k, afterKey) ← unquote opened
      match skipSpace afterKey with
      | ':' :: afterColon => do
        let (v, afterValue) ← parseValue fuel afterColon
        match skipSpace afterValue with
        | ',' :: rest => parseMembers fuel (assign members k v) rest
        | '}' :: rest => return (assign members k v, rest)
        | _ => none
      | _ => none
    | _ => none

end

/-- `JSON.parse`: one value, with nothing but space around it. -/
def parse (text : List Char) : Option Value :=
  match parseValue (text.length + 1) text with
  | some (v, rest) => if skipSpace rest = [] then some v else none
  | none => none

end Parser

section RoundTrip

open Value

lemma joined_cons (t : List Char) {ts : List (List Char)} (h : ts ≠ []) :
    joined (t :: ts) = t ++ ',' :: joined ts := by
  cases ts with
  | nil => exact absurd rfl h
  | cons u rest => rfl

lemma skipSpace_cons {c : Char} (rest : List Char) (h : isSpace c = false) :
    skipSpace (c :: rest) = c :: rest := by
  simp [skipSpace, h]

lemma assign_fresh {members : List (JsString × Value)} {k : JsString} (v : Value)
    (h : k ∉ members.map Prod.fst) : assign members k v = members ++ [(k, v)] := by
  rw [assign, if_neg h]

lemma number_head {n : Number} (h : n.IsFinite) :
    ∃ c tail, n.text = c :: tail ∧ (c = '-' ∨ c.isDigit = true) := by
  cases n with
  | nan => exact h.elim
  | infinity negative => exact h.elim
  | zero => exact ⟨'0', [], rfl, Or.inr (by decide)⟩
  | finite negative d =>
    obtain ⟨hne, _, _⟩ := parts_value negative d
    obtain ⟨x, tail, hx, _⟩ := head_digitText [] hne
    cases negative with
    | true => exact ⟨'-', d.text, rfl, Or.inl rfl⟩
    | false =>
      refine ⟨digitChar x, digitText tail ++ fractionText d.parts.2.1 ++ exponentText d.parts.2.2, ?_,
        Or.inr (isDigit_digitChar x)⟩
      rw [Number.text, Decimal.text, hx]
      rfl

/-- A text starts with a character that is no space and closes nothing. -/
lemma render_head {v : Value} (h : Plain v) :
    ∃ c tail, v.render = c :: tail ∧ isSpace c = false ∧ c ≠ ']' := by
  cases h with
  | null => exact ⟨'n', _, rfl, by decide, by decide⟩
  | bool b =>
    cases b with
    | true => exact ⟨'t', _, rfl, by decide, by decide⟩
    | false => exact ⟨'f', _, rfl, by decide, by decide⟩
  | number hn =>
    obtain ⟨c, tail, hc, rfl | hdigit⟩ := number_head hn
    · exact ⟨'-', tail, hc, by decide, by decide⟩
    · refine ⟨c, tail, hc, ?_, ?_⟩
      · by_contra hspace
        simp only [isSpace, Bool.not_eq_false, Bool.or_eq_true, decide_eq_true_eq] at hspace
        rcases hspace with ((rfl | rfl) | rfl) | rfl <;> revert hdigit <;> decide
      · rintro rfl
        revert hdigit
        decide
  | string s => exact ⟨'"', _, rfl, by decide, by decide⟩
  | array h => exact ⟨'[', _, rfl, by decide, by decide⟩
  | object hkeys h => exact ⟨'{', _, rfl, by decide, by decide⟩

/-- The parser gives back the value of a text, whatever follows it. -/
def Reads (v : Value) : Prop :=
  ∀ fuel rest, v.render.length ≤ fuel → EndsNumber rest →
    parseValue fuel (v.render ++ rest) = some (v, rest)

lemma reads_number {n : Number} (hn : n.IsFinite) : Reads (number n) := by
  intro fuel rest hfuel hrest
  obtain ⟨c, tail, hc, hhead⟩ := number_head hn
  have hspace : isSpace c = false ∧ c ≠ 'n' ∧ c ≠ 't' ∧ c ≠ 'f' ∧ c ≠ '"' ∧ c ≠ '[' ∧ c ≠ '{' := by
    rcases hhead with rfl | hdigit
    · decide
    · refine ⟨?_, ?_, ?_, ?_, ?_, ?_, ?_⟩
      · obtain ⟨c', tail', hc', hs, _⟩ := render_head (Plain.number hn)
        rw [render, hc] at hc'
        cases hc'
        exact hs
      all_goals
        rintro rfl
        revert hdigit
        decide
  obtain ⟨hs, h1, h2, h3, h4, h5, h6⟩ := hspace
  rw [render] at hfuel ⊢
  have hread := parseNumber_text hn hrest
  rw [hc] at hfuel hread ⊢
  cases fuel with
  | zero => cases hfuel
  | succ fuel =>
    rw [List.cons_append] at hread ⊢
    rw [parseValue, skipSpace_cons _ hs]
    simp only [if_neg h1, if_neg h2, if_neg h3, if_neg h4, if_neg h5, if_neg h6, hread]
    rfl

lemma literal?_append (word rest : List Char) (v : Value) :
    literal? word v (word ++ rest) = some (v, rest) := by
  unfold literal?
  rw [if_pos (List.isPrefixOf_iff_prefix.mpr (List.prefix_append word rest)), List.drop_left]

lemma reads_bool (b : Bool) : Reads (bool b) := by
  intro fuel rest hfuel _
  cases fuel with
  | zero => cases b <;> cases hfuel
  | succ fuel =>
    cases b with
    | true =>
      rw [parseValue]
      exact literal?_append (boolText true) rest (bool true)
    | false =>
      rw [parseValue]
      exact literal?_append (boolText false) rest (bool false)

lemma reads_null : Reads null := by
  intro fuel rest hfuel _
  cases fuel with
  | zero => cases hfuel
  | succ fuel =>
    rw [parseValue]
    exact literal?_append ['n', 'u', 'l', 'l'] rest null

lemma reads_string (s : JsString) : Reads (string s) := by
  intro fuel rest hfuel _
  rw [render, quote] at hfuel ⊢
  cases fuel with
  | zero => cases hfuel
  | succ fuel =>
    rw [parseValue]
    have hread := unquote_quoteUnits s rest
    rw [List.cons_append, List.cons_append, List.append_assoc, List.singleton_append,
      skipSpace_cons _ (by decide)]
    simp only [show ('"' : Char) ≠ 'n' by decide, show ('"' : Char) ≠ 't' by decide,
      show ('"' : Char) ≠ 'f' by decide, if_true, if_false, hread]
    rfl

lemma endsNumber_comma (rest : List Char) : EndsNumber (',' :: rest) :=
  ends_of_head rfl (by decide)

lemma endsNumber_bracket (rest : List Char) : EndsNumber (']' :: rest) :=
  ends_of_head rfl (by decide)

lemma endsNumber_brace (rest : List Char) : EndsNumber ('}' :: rest) :=
  ends_of_head rfl (by decide)

lemma reads_items {items : List Value} (hne : items ≠ []) (hreads : ∀ v ∈ items, Reads v)
    (fuel : ℕ) (rest : List Char) (hfuel : (joined (renderItems items)).length < fuel) :
    parseItems fuel (joined (renderItems items) ++ ']' :: rest) = some (items, rest) := by
  induction items generalizing fuel with
  | nil => exact absurd rfl hne
  | cons v tail ih =>
    obtain ⟨hv, htail⟩ := List.forall_mem_cons.mp hreads
    cases fuel with
    | zero => cases hfuel
    | succ fuel =>
      cases tail with
      | nil =>
        have hread := hv fuel (']' :: rest) (Nat.lt_succ_iff.mp hfuel) (endsNumber_bracket rest)
        have hskip : skipSpace (']' :: rest) = ']' :: rest := skipSpace_cons rest (by decide)
        rw [parseItems]
        simp only [renderItems, joined, hread, Option.bind_eq_bind, Option.bind_some, hskip]
        rfl
      | cons w tail =>
        have hne' : renderItems (w :: tail) ≠ [] := List.cons_ne_nil _ _
        rw [renderItems, joined_cons _ hne', List.length_append, List.length_cons] at hfuel
        have hread := hv fuel (',' :: (joined (renderItems (w :: tail)) ++ ']' :: rest)) (by omega)
          (endsNumber_comma _)
        have hskip := skipSpace_cons (joined (renderItems (w :: tail)) ++ ']' :: rest)
          (show isSpace ',' = false by decide)
        have hrest := ih (List.cons_ne_nil _ _) htail fuel (by omega)
        rw [parseItems, renderItems, joined_cons _ hne', List.append_assoc, List.cons_append]
        simp only [hread, Option.bind_eq_bind, Option.bind_some, hskip, hrest]
        rfl

lemma reads_array {items : List Value} (hplain : ∀ v ∈ items, Plain v)
    (hreads : ∀ v ∈ items, Reads v) : Reads (array items) := by
  intro fuel rest hfuel _
  rw [render] at hfuel ⊢
  cases fuel with
  | zero => cases hfuel
  | succ fuel =>
    rw [parseValue, List.cons_append, List.cons_append, List.append_assoc, List.singleton_append,
      skipSpace_cons _ (by decide)]
    cases items with
    | nil => rfl
    | cons v tail =>
      obtain ⟨c, text, hc, hspace, hclose⟩ := render_head (hplain v List.mem_cons_self)
      have hread := reads_items (List.cons_ne_nil v tail) hreads fuel rest (by
        simp only [List.length_cons, List.length_append, List.length_nil] at hfuel
        omega)
      have hhead : ∃ more, joined (renderItems (v :: tail)) ++ ']' :: rest = c :: more := by
        cases tail with
        | nil => exact ⟨text ++ ']' :: rest, by simp [renderItems, joined, hc]⟩
        | cons w tail => exact ⟨_, by simp [renderItems, joined, hc]; rfl⟩
      obtain ⟨more, hmore⟩ := hhead
      simp only [show ('[' : Char) ≠ 'n' by decide, show ('[' : Char) ≠ 't' by decide,
        show ('[' : Char) ≠ 'f' by decide, show ('[' : Char) ≠ '"' by decide, if_true, if_false]
      rw [hread, hmore, skipSpace_cons _ hspace, List.head?_cons,
        if_neg fun h => hclose (Option.some.inj h)]
      rfl

lemma reads_member {v : Value} (hv : Reads v) (k : JsString) (fuel : ℕ)
    (seen : List (JsString × Value)) {next : List Char} (hfuel : v.render.length ≤ fuel)
    (hnext : EndsNumber next) :
    parseMembers (fuel + 1) seen (quote k ++ ':' :: v.render ++ next) =
      match skipSpace next with
      | ',' :: rest => parseMembers fuel (assign seen k v) rest
      | '}' :: rest => some (assign seen k v, rest)
      | _ => none := by
  have hread := hv fuel next hfuel hnext
  have hkey := unquote_quoteUnits k (':' :: (v.render ++ next))
  have hopen := skipSpace_cons (quoteUnits k ++ '"' :: ':' :: (v.render ++ next))
    (show isSpace '"' = false by decide)
  have hcolon := skipSpace_cons (v.render ++ next) (show isSpace ':' = false by decide)
  have htext : quote k ++ ':' :: v.render ++ next =
      '"' :: (quoteUnits k ++ '"' :: ':' :: (v.render ++ next)) := by
    simp [quote]
  rw [htext, parseMembers]
  simp only [hopen, hkey, hcolon, hread, Option.bind_eq_bind, Option.bind_some, Option.pure_def]

lemma reads_members {members : List (JsString × Value)} (hne : members ≠ [])
    (hreads : ∀ m ∈ members, Reads m.2) (fuel : ℕ) (seen : List (JsString × Value))
    (rest : List Char) (hkeys : ((seen ++ members).map Prod.fst).Nodup)
    (hfuel : (joined (renderMembers members)).length < fuel) :
    parseMembers fuel seen (joined (renderMembers members) ++ '}' :: rest) =
      some (seen ++ members, rest) := by
  induction members generalizing fuel seen with
  | nil => exact absurd rfl hne
  | cons m tail ih =>
    obtain ⟨k, v⟩ := m
    obtain ⟨hv, htail⟩ := List.forall_mem_cons.mp hreads
    have hfresh : k ∉ seen.map Prod.fst := by
      rw [List.map_append, List.map_cons] at hkeys
      intro hmem
      exact (List.nodup_append.mp hkeys).2.2 k hmem k List.mem_cons_self rfl
    cases fuel with
    | zero => cases hfuel
    | succ fuel =>
      cases tail with
      | nil =>
        have hskip := skipSpace_cons rest (show isSpace '}' = false by decide)
        rw [renderMembers, renderMembers, joined, List.length_append, List.length_cons] at hfuel
        rw [renderMembers, renderMembers, joined,
          reads_member hv k fuel seen (show v.render.length ≤ fuel by omega) (endsNumber_brace rest),
          hskip, assign_fresh v hfresh]
        rfl
      | cons w tail =>
        have hne' : renderMembers (w :: tail) ≠ [] := List.cons_ne_nil _ _
        have hskip := skipSpace_cons (joined (renderMembers (w :: tail)) ++ '}' :: rest)
          (show isSpace ',' = false by decide)
        rw [renderMembers, joined_cons _ hne', List.length_append, List.length_append,
          List.length_cons, List.length_cons] at hfuel
        have hrest := ih (List.cons_ne_nil _ _) htail fuel (seen ++ [(k, v)])
          (by rwa [List.append_assoc]) (by omega)
        rw [renderMembers, joined_cons _ hne', List.append_assoc, List.cons_append,
          reads_member hv k fuel seen (show v.render.length ≤ fuel by omega) (endsNumber_comma _),
          hskip, assign_fresh v hfresh]
        rw [List.append_assoc] at hrest
        exact hrest

lemma reads_object {members : List (JsString × Value)} (hkeys : (members.map Prod.fst).Nodup)
    (hreads : ∀ m ∈ members, Reads m.2) : Reads (object members) := by
  intro fuel rest hfuel _
  rw [render] at hfuel ⊢
  cases fuel with
  | zero => cases hfuel
  | succ fuel =>
    rw [parseValue, List.cons_append, List.cons_append, List.append_assoc, List.singleton_append,
      skipSpace_cons _ (by decide)]
    cases members with
    | nil => rfl
    | cons m tail =>
      have hread := reads_members (List.cons_ne_nil m tail) hreads fuel [] rest hkeys (by
        simp only [List.length_cons, List.length_append, List.length_nil] at hfuel
        omega)
      have hhead : ∃ more, joined (renderMembers (m :: tail)) ++ '}' :: rest = '"' :: more := by
        cases tail with
        | nil => exact ⟨_, by simp only [renderMembers, joined, quote, List.cons_append]; rfl⟩
        | cons w tail => exact ⟨_, by simp only [renderMembers, joined, quote, List.cons_append]; rfl⟩
      obtain ⟨more, hmore⟩ := hhead
      simp only [show ('{' : Char) ≠ 'n' by decide, show ('{' : Char) ≠ 't' by decide,
        show ('{' : Char) ≠ 'f' by decide, show ('{' : Char) ≠ '"' by decide,
        show ('{' : Char) ≠ '[' by decide, if_true, if_false]
      rw [hread, hmore, skipSpace_cons _ (by decide), List.head?_cons,
        if_neg fun h => absurd (Option.some.inj h) (by decide)]
      rfl

lemma Value.Plain.reads {v : Value} (h : Plain v) : Reads v := by
  induction h with
  | null => exact reads_null
  | bool b => exact reads_bool b
  | number hn => exact reads_number hn
  | string s => exact reads_string s
  | array h ih => exact reads_array h ih
  | object hkeys _ ih => exact reads_object hkeys ih

/-- A text parses to the value it is the text of, with the members of objects in their order. -/
lemma parse_render {v : Value} (h : Plain v) : parse v.render = some v := by
  have hread := h.reads (v.render.length + 1) [] (Nat.le_succ _) (by
    intro c hc
    cases hc)
  rw [List.append_nil] at hread
  unfold parse
  rw [hread]
  rfl

lemma render_injective {v w : Value} (hv : Plain v) (hw : Plain w) (h : v.render = w.render) :
    v = w := by
  have hparse := parse_render hv
  rw [h, parse_render hw] at hparse
  exact (Option.some.inj hparse).symm

end RoundTrip

end VivimOmega.Library.Json

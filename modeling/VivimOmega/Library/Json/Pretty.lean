import VivimOmega.Library.Json.Stringify

/-! The text with two columns a level parses to the value that it is the text of. -/

namespace VivimOmega.Library.Json

open Value

section Blanks

variable {ws cs : List Char}

def Blank (ws : List Char) : Prop := ∀ c ∈ ws, isSpace c = true

lemma Blank.append {us : List Char} (hw : Blank ws) (hu : Blank us) : Blank (ws ++ us) :=
  List.forall_mem_append.mpr ⟨hw, hu⟩

lemma blank_newline : Blank ['\n'] := List.forall_mem_singleton.mpr rfl

lemma blank_indent (n : ℕ) : Blank (List.replicate n ' ') := by
  intro c hc
  rw [List.eq_of_mem_replicate hc]
  rfl

lemma skipSpace_blank (h : Blank ws) (cs : List Char) : skipSpace (ws ++ cs) = skipSpace cs :=
  List.dropWhile_append_of_pos h

lemma parseValue_blank (h : Blank ws) (fuel : ℕ) (cs : List Char) :
    parseValue fuel (ws ++ cs) = parseValue fuel cs := by
  cases fuel with
  | zero => rw [parseValue, parseValue]
  | succ fuel => rw [parseValue, parseValue, skipSpace_blank h]

lemma parseMembers_blank (h : Blank ws) (fuel : ℕ) (seen : List (JsString × Value)) (cs : List Char) :
    parseMembers fuel seen (ws ++ cs) = parseMembers fuel seen cs := by
  cases fuel with
  | zero => rw [parseMembers, parseMembers]
  | succ fuel => rw [parseMembers, parseMembers, skipSpace_blank h]

lemma endsNumber_newline (rest : List Char) : EndsNumber ('\n' :: rest) := ends_of_head rfl (by decide)

end Blanks

section Pretty

variable {v : Value} {depth fuel : ℕ} {ws : List Char}

/-- The parser gives back the value of a text at any depth, whatever follows it. -/
def ReadsPretty (v : Value) : Prop :=
  ∀ depth fuel rest, (prettyText depth v).length ≤ fuel → EndsNumber rest →
    parseValue fuel (prettyText depth v ++ rest) = some (v, rest)

lemma pretty_head (h : Plain v) (depth : ℕ) :
    ∃ c tail, prettyText depth v = c :: tail ∧ isSpace c = false ∧ c ≠ ']' := by
  cases h with
  | @array items _ =>
    cases items with
    | nil => exact ⟨'[', _, rfl, by decide, by decide⟩
    | cons w items => exact ⟨'[', _, rfl, by decide, by decide⟩
  | @object members _ _ =>
    cases members with
    | nil => exact ⟨'{', _, rfl, by decide, by decide⟩
    | cons m members => exact ⟨'{', _, rfl, by decide, by decide⟩
  | null => exact render_head .null
  | bool b => exact render_head (.bool b)
  | number hn => exact render_head (.number hn)
  | string s => exact render_head (.string s)

/-- What closes a list of items: a line of its own. -/
def closing (close : ℕ) (c : Char) (rest : List Char) : List Char := '\n' :: (List.replicate close ' ' ++ c :: rest)

lemma skipSpace_closing (close : ℕ) {c : Char} (rest : List Char) (hc : isSpace c = false) :
    skipSpace (closing close c rest) = c :: rest := by
  have hblank : Blank (['\n'] ++ List.replicate close ' ') := blank_newline.append (blank_indent close)
  have htext : closing close c rest = (['\n'] ++ List.replicate close ' ') ++ c :: rest := by
    rw [closing, List.append_assoc]
    rfl
  rw [htext, skipSpace_blank hblank, skipSpace_cons _ hc]

lemma reads_prettyItems (close : ℕ) (rest : List Char) {items : List Value} (hne : items ≠ []) (hreads : ∀ v ∈ items, ReadsPretty v) (depth : ℕ)
    (hws : Blank ws) (hfuel : ([',', '\n'].intercalate (prettyItems depth items)).length < fuel) :
    parseItems fuel (ws ++ ([',', '\n'].intercalate (prettyItems depth items) ++ closing close ']' rest)) =
      some (items, rest) := by
  induction items generalizing fuel ws with
  | nil => exact absurd rfl hne
  | cons v tail ih =>
    obtain ⟨hv, htail⟩ := List.forall_mem_cons.mp hreads
    cases fuel with
    | zero => cases hfuel
    | succ fuel =>
      have hindent := hws.append (blank_indent depth)
      cases tail with
      | nil =>
        rw [prettyItems, prettyItems, List.intercalate_singleton, List.length_append] at hfuel
        have hread := hv depth fuel (closing close ']' rest) (by omega) (endsNumber_newline _)
        rw [prettyItems, prettyItems, List.intercalate_singleton, parseItems, List.append_assoc, ← List.append_assoc ws,
          parseValue_blank hindent, hread]
        simp only [Option.bind_eq_bind, Option.bind_some, skipSpace_closing close rest (show isSpace ']' = false by decide)]
        rfl
      | cons w tail =>
        have hcons : [',', '\n'].intercalate (prettyItems depth (v :: w :: tail)) =
            List.replicate depth ' ' ++ (prettyText depth v ++
              ',' :: (['\n'] ++ [',', '\n'].intercalate (prettyItems depth (w :: tail)))) := by
          rw [prettyItems, prettyItems, List.intercalate_cons_cons]
          simp only [List.append_assoc, List.cons_append, List.nil_append]
        rw [hcons] at hfuel ⊢
        simp only [List.length_append, List.length_cons] at hfuel
        have hread := hv depth fuel (',' :: (['\n'] ++ ([',', '\n'].intercalate (prettyItems depth (w :: tail)) ++
          closing close ']' rest))) (by omega) (endsNumber_comma _)
        have hrest := ih (List.cons_ne_nil _ _) htail blank_newline (show _ < fuel by omega)
        have hskip := skipSpace_cons (['\n'] ++ ([',', '\n'].intercalate (prettyItems depth (w :: tail)) ++
          closing close ']' rest)) (show isSpace ',' = false by decide)
        have htext : ws ++ (List.replicate depth ' ' ++ (prettyText depth v ++ ',' :: (['\n'] ++
            [',', '\n'].intercalate (prettyItems depth (w :: tail)))) ++ closing close ']' rest) =
            (ws ++ List.replicate depth ' ') ++ (prettyText depth v ++ ',' :: (['\n'] ++
              ([',', '\n'].intercalate (prettyItems depth (w :: tail)) ++ closing close ']' rest))) := by
          simp only [List.append_assoc, List.cons_append]
        rw [htext, parseItems, parseValue_blank hindent, hread]
        simp only [Option.bind_eq_bind, Option.bind_some, hskip, hrest]
        rfl

lemma reads_prettyMember (hv : ReadsPretty v) (k : JsString) (depth : ℕ) (seen : List (JsString × Value)) {next : List Char}
    (hws : Blank ws) (hfuel : (prettyText depth v).length ≤ fuel) (hnext : EndsNumber next) :
    parseMembers (fuel + 1) seen (ws ++ (quote k ++ ':' :: ' ' :: (prettyText depth v ++ next))) =
      match skipSpace next with
      | ',' :: rest => parseMembers fuel (assign seen k v) rest
      | '}' :: rest => some (assign seen k v, rest)
      | _ => none := by
  have hread : parseValue fuel (' ' :: (prettyText depth v ++ next)) = some (v, next) :=
    (parseValue_blank (blank_indent 1) fuel _).trans (hv depth fuel next hfuel hnext)
  have hkey := unquote_quoteUnits k (':' :: ' ' :: (prettyText depth v ++ next))
  have hopen := skipSpace_cons (quoteUnits k ++ '"' :: ':' :: ' ' :: (prettyText depth v ++ next))
    (show isSpace '"' = false by decide)
  have hcolon := skipSpace_cons (' ' :: (prettyText depth v ++ next)) (show isSpace ':' = false by decide)
  have htext : quote k ++ ':' :: ' ' :: (prettyText depth v ++ next) =
      '"' :: (quoteUnits k ++ '"' :: ':' :: ' ' :: (prettyText depth v ++ next)) := by
    simp [quote]
  rw [parseMembers_blank hws, htext, parseMembers]
  simp only [hopen, hkey, hcolon, hread, Option.bind_eq_bind, Option.bind_some, Option.pure_def] <;>
    rfl

lemma reads_prettyMembers (close : ℕ) (rest : List Char) {members : List (JsString × Value)} (hne : members ≠ []) (hreads : ∀ m ∈ members, ReadsPretty m.2)
    (depth : ℕ) (seen : List (JsString × Value)) (hkeys : ((seen ++ members).map Prod.fst).Nodup) (hws : Blank ws)
    (hfuel : ([',', '\n'].intercalate (prettyMembers depth members)).length < fuel) :
    parseMembers fuel seen (ws ++ ([',', '\n'].intercalate (prettyMembers depth members) ++ closing close '}' rest)) =
      some (seen ++ members, rest) := by
  induction members generalizing fuel seen ws with
  | nil => exact absurd rfl hne
  | cons m tail ih =>
    obtain ⟨k, v⟩ := m
    obtain ⟨hhead, htail⟩ := List.forall_mem_cons.mp hreads
    have hv : ReadsPretty v := hhead
    have hends : EndsNumber (closing close '}' rest) := endsNumber_newline _
    have hfresh : k ∉ seen.map Prod.fst := by
      rw [List.map_append, List.map_cons] at hkeys
      intro hmem
      exact (List.nodup_append.mp hkeys).2.2 k hmem k List.mem_cons_self rfl
    have hindent := hws.append (blank_indent depth)
    cases fuel with
    | zero => cases hfuel
    | succ fuel =>
      cases tail with
      | nil =>
        rw [prettyMembers, prettyMembers, List.intercalate_singleton] at hfuel
        simp only [List.length_append, List.length_cons] at hfuel
        have htext : ws ++ ([',', '\n'].intercalate (prettyMembers depth [(k, v)]) ++ closing close '}' rest) =
            (ws ++ List.replicate depth ' ') ++ (quote k ++ ':' :: ' ' :: (prettyText depth v ++ closing close '}' rest)) := by
          rw [prettyMembers, prettyMembers, List.intercalate_singleton]
          simp only [List.append_assoc, List.cons_append]
        rw [htext, reads_prettyMember hv k depth seen hindent (show (prettyText depth v).length ≤ fuel by omega)
          hends, skipSpace_closing close rest (show isSpace '}' = false by decide), assign_fresh v hfresh]
        rfl
      | cons w tail =>
        have hcons : [',', '\n'].intercalate (prettyMembers depth ((k, v) :: w :: tail)) =
            List.replicate depth ' ' ++ (quote k ++ ':' :: ' ' :: (prettyText depth v ++
              ',' :: (['\n'] ++ [',', '\n'].intercalate (prettyMembers depth (w :: tail))))) := by
          rw [prettyMembers, prettyMembers, List.intercalate_cons_cons]
          simp only [List.append_assoc, List.cons_append, List.nil_append]
        rw [hcons] at hfuel ⊢
        simp only [List.length_append, List.length_cons] at hfuel
        have hrest := ih (List.cons_ne_nil _ _) htail (seen ++ [(k, v)]) (by rwa [List.append_assoc]) blank_newline
          (show _ < fuel by omega)
        have hskip := skipSpace_cons (['\n'] ++ ([',', '\n'].intercalate (prettyMembers depth (w :: tail)) ++
          closing close '}' rest)) (show isSpace ',' = false by decide)
        have htext : ws ++ (List.replicate depth ' ' ++ (quote k ++ ':' :: ' ' :: (prettyText depth v ++ ',' :: (['\n'] ++
            [',', '\n'].intercalate (prettyMembers depth (w :: tail))))) ++ closing close '}' rest) =
            (ws ++ List.replicate depth ' ') ++ (quote k ++ ':' :: ' ' :: (prettyText depth v ++ ',' :: (['\n'] ++
              ([',', '\n'].intercalate (prettyMembers depth (w :: tail)) ++ closing close '}' rest)))) := by
          simp only [List.append_assoc, List.cons_append]
        rw [htext, reads_prettyMember hv k depth seen hindent (show (prettyText depth v).length ≤ fuel by omega)
          (endsNumber_comma _), hskip, assign_fresh v hfresh]
        rw [List.append_assoc] at hrest
        exact hrest

lemma reads_prettyArray {items : List Value} (hplain : ∀ v ∈ items, Plain v) (hreads : ∀ v ∈ items, ReadsPretty v) :
    ReadsPretty (array items) := by
  intro depth fuel rest hfuel hrest
  cases fuel with
  | zero =>
    cases items <;> cases hfuel
  | succ fuel =>
    cases items with
    | nil =>
      have hempty : Reads (array []) := reads_array (by simp) (by simp)
      exact hempty (fuel + 1) rest hfuel hrest
    | cons v tail =>
      have htext : prettyText depth (array (v :: tail)) ++ rest = '[' :: (['\n'] ++
          ([',', '\n'].intercalate (prettyItems (depth + 2) (v :: tail)) ++ closing depth ']' rest)) := by
        rw [prettyText]
        simp [closing]
      have hlen : ([',', '\n'].intercalate (prettyItems (depth + 2) (v :: tail))).length < fuel := by
        have hsize := congrArg List.length htext
        simp only [List.length_append, List.length_cons, closing, List.length_replicate] at hsize
        omega
      have hread := reads_prettyItems depth rest (List.cons_ne_nil v tail) hreads (depth + 2) blank_newline hlen
      obtain ⟨c, text, hc, hspace, hclose⟩ := pretty_head (hplain v List.mem_cons_self) (depth + 2)
      have hhead : ∃ more, [',', '\n'].intercalate (prettyItems (depth + 2) (v :: tail)) ++ closing depth ']' rest =
          List.replicate (depth + 2) ' ' ++ c :: more := by
        cases tail with
        | nil => exact ⟨text ++ closing depth ']' rest, by simp [prettyItems, hc]⟩
        | cons w tail => exact ⟨_, by rw [prettyItems, prettyItems, List.intercalate_cons_cons, hc]; simp; rfl⟩
      obtain ⟨more, hmore⟩ := hhead
      rw [htext, parseValue, skipSpace_cons _ (by decide)]
      simp only [show ('[' : Char) ≠ 'n' by decide, show ('[' : Char) ≠ 't' by decide,
        show ('[' : Char) ≠ 'f' by decide, show ('[' : Char) ≠ '"' by decide, if_true, if_false]
      rw [hread, skipSpace_blank blank_newline, hmore, skipSpace_blank (blank_indent _), skipSpace_cons _ hspace,
        List.head?_cons, if_neg fun h => hclose (Option.some.inj h)]
      rfl

lemma reads_prettyObject {members : List (JsString × Value)} (hkeys : (members.map Prod.fst).Nodup)
    (hreads : ∀ m ∈ members, ReadsPretty m.2) : ReadsPretty (object members) := by
  intro depth fuel rest hfuel hrest
  cases fuel with
  | zero =>
    cases members <;> cases hfuel
  | succ fuel =>
    cases members with
    | nil =>
      have hempty : Reads (object []) := reads_object (by simp) (by simp)
      exact hempty (fuel + 1) rest hfuel hrest
    | cons m tail =>
      have htext : prettyText depth (object (m :: tail)) ++ rest = '{' :: (['\n'] ++
          ([',', '\n'].intercalate (prettyMembers (depth + 2) (m :: tail)) ++ closing depth '}' rest)) := by
        rw [prettyText]
        simp [closing]
      have hlen : ([',', '\n'].intercalate (prettyMembers (depth + 2) (m :: tail))).length < fuel := by
        have hsize := congrArg List.length htext
        simp only [List.length_append, List.length_cons, closing, List.length_replicate] at hsize
        omega
      have hread := reads_prettyMembers depth rest (List.cons_ne_nil m tail) hreads (depth + 2) [] hkeys
        blank_newline hlen
      have hhead : ∃ more, [',', '\n'].intercalate (prettyMembers (depth + 2) (m :: tail)) ++ closing depth '}' rest =
          List.replicate (depth + 2) ' ' ++ '"' :: more := by
        cases tail with
        | nil => exact ⟨_, by simp only [prettyMembers, List.intercalate_singleton, quote, List.cons_append, List.append_assoc]; rfl⟩
        | cons w tail =>
          exact ⟨_, by
            rw [prettyMembers, prettyMembers, List.intercalate_cons_cons]
            simp only [quote, List.cons_append, List.append_assoc]
            rfl⟩
      obtain ⟨more, hmore⟩ := hhead
      rw [htext, parseValue, skipSpace_cons _ (by decide)]
      simp only [show ('{' : Char) ≠ 'n' by decide, show ('{' : Char) ≠ 't' by decide,
        show ('{' : Char) ≠ 'f' by decide, show ('{' : Char) ≠ '"' by decide,
        show ('{' : Char) ≠ '[' by decide, if_true, if_false]
      rw [hread, skipSpace_blank blank_newline, hmore, skipSpace_blank (blank_indent _), skipSpace_cons _ (by decide),
        List.head?_cons, if_neg fun h => absurd (Option.some.inj h) (by decide)]
      rfl

lemma Value.Plain.readsPretty (h : Plain v) : ReadsPretty v := by
  induction h with
  | null => exact fun _ => reads_null
  | bool b => exact fun _ => reads_bool b
  | number hn => exact fun _ => reads_number hn
  | string s => exact fun _ => reads_string s
  | array h ih => exact reads_prettyArray h ih
  | object hkeys _ ih => exact reads_prettyObject hkeys ih

lemma parse_prettyText (h : Plain v) : parse (prettyText 0 v) = some v := by
  have hread := h.readsPretty 0 ((prettyText 0 v).length + 1) [] (Nat.le_succ _) (by
    intro c hc
    cases hc)
  rw [List.append_nil] at hread
  unfold parse
  rw [hread]
  rfl

lemma parse_stringifyPretty (hv : Keyed v) {text : String} (h : stringifyPretty v = .ok text) :
    ∃ w, serialized v = .ok w ∧ parse text.toList = some w := by
  unfold stringifyPretty at h
  cases hs : serialized v with
  | error e =>
    rw [hs] at h
    cases h
  | ok w =>
    rw [hs] at h
    cases h
    exact ⟨w, rfl, by rw [String.toList_ofList]; exact parse_prettyText (hv.plain hs)⟩

end Pretty

end VivimOmega.Library.Json

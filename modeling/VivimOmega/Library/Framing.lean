import VivimOmega.Library.Json.Value
import VivimOmega.Library.Text
import VivimOmega.Library.Utf8

/-! Messages as lines of JSON, and the lines of a text that arrives in parts. -/

namespace VivimOmega.Library

open Json Json.Value

section Lines

/-- The lines that have ended, and the start of the next one. -/
def cutLines (buf : List Char) : List (List Char) × List Char :=
  ((buf.splitOn '\n').dropLast, (buf.splitOn '\n').getLast?.getD [])

variable {line text rest : List Char}

lemma cutLines_line (h : '\n' ∉ line) (rest : List Char) :
    cutLines (line ++ '\n' :: rest) = (line :: (cutLines rest).1, (cutLines rest).2) := by
  have hne := List.splitOn_ne_nil '\n' rest
  rw [cutLines, List.splitOn_append_cons_self_of_not_mem h, List.dropLast_cons_of_ne_nil hne,
    List.getLast?_cons_of_ne_nil hne]
  rfl

lemma cutLines_open (h : '\n' ∉ text) : cutLines text = ([], text) := by
  rw [cutLines, List.splitOn_eq_singleton h]
  rfl

/-- A text has a first line, or it has none. -/
lemma lines_cases (text : List Char) : '\n' ∉ text ∨ ∃ line rest, '\n' ∉ line ∧ text = line ++ '\n' :: rest := by
  by_cases h : '\n' ∈ text
  · obtain ⟨line, rest, heq, hline⟩ := List.eq_append_cons_of_mem h
    exact Or.inr ⟨line, rest, hline, heq⟩
  · exact Or.inl h

lemma cutLines_append (a b : List Char) :
    cutLines (a ++ b) = ((cutLines a).1 ++ (cutLines ((cutLines a).2 ++ b)).1, (cutLines ((cutLines a).2 ++ b)).2) := by
  induction h : a.length using Nat.strongRecOn generalizing a with
  | _ n ih =>
    obtain hopen | ⟨line, rest, hline, rfl⟩ := lines_cases a
    · rw [cutLines_open hopen]
      rfl
    · have hrest := ih rest.length (by simp at h; omega) rest rfl
      rw [List.append_assoc, List.cons_append, cutLines_line hline, cutLines_line hline, hrest]
      rfl

lemma cutLines_snd (text : List Char) : '\n' ∉ (cutLines text).2 := by
  induction h : text.length using Nat.strongRecOn generalizing text with
  | _ n ih =>
    obtain hopen | ⟨line, rest, hline, rfl⟩ := lines_cases text
    · rw [cutLines_open hopen]
      exact hopen
    · rw [cutLines_line hline]
      exact ih rest.length (by simp at h; omega) rest rfl

/-- Each text on a line of its own. -/
def frame (texts : List (List Char)) : List Char := texts.flatMap fun text => text ++ ['\n']

lemma frame_cons (text : List Char) (texts : List (List Char)) : frame (text :: texts) = text ++ '\n' :: frame texts := by
  simp [frame]

lemma cutLines_frame {texts : List (List Char)} (h : ∀ text ∈ texts, '\n' ∉ text) : cutLines (frame texts) = (texts, []) := by
  induction texts with
  | nil => rfl
  | cons text texts ih =>
    obtain ⟨htext, hrest⟩ := List.forall_mem_cons.mp h
    rw [frame_cons, cutLines_line htext, ih hrest]

/-- The lines that a part of the framed texts has are the first of them. -/
lemma cutLines_initial {texts : List (List Char)} (h : ∀ text ∈ texts, '\n' ∉ text) {part : List Char}
    (hpart : part <+: frame texts) : (cutLines part).1 <+: texts := by
  obtain ⟨rest, hrest⟩ := hpart
  have hall := cutLines_frame h
  rw [← hrest, cutLines_append] at hall
  exact ⟨_, congrArg Prod.fst hall⟩

lemma frame_injective {texts others : List (List Char)} (h : ∀ text ∈ texts, '\n' ∉ text)
    (ho : ∀ text ∈ others, '\n' ∉ text) (heq : frame texts = frame others) : texts = others := by
  have hlines := congrArg cutLines heq
  rw [cutLines_frame h, cutLines_frame ho] at hlines
  exact congrArg Prod.fst hlines

end Lines

section Cuts

open Utf8

variable {cs ds text line rest : List Char} {c : Char} {chunks : List (List UInt8)} {bytes a b : List UInt8}

/-- What is left of a text when some of the characters beyond ASCII are each replaced by replacement characters. -/
inductive Worn : List Char → List Char → Prop
  | nil : Worn [] []
  | kept (c : Char) {cs ds : List Char} (h : Worn cs ds) : Worn (c :: cs) (c :: ds)
  | lost {c : Char} (n : ℕ) (hc : 0x80 ≤ c.toNat) {cs ds : List Char} (h : Worn cs ds) :
    Worn (c :: cs) ('\uFFFD' :: List.replicate n '\uFFFD' ++ ds)

namespace Worn

lemma refl (cs : List Char) : Worn cs cs := by
  induction cs with
  | nil => exact nil
  | cons c cs ih => exact kept c ih

lemma append {xs ys : List Char} (hcs : Worn cs ds) (hxs : Worn xs ys) : Worn (cs ++ xs) (ds ++ ys) := by
  induction hcs with
  | nil => exact hxs
  | kept c _ ih => exact kept c ih
  | lost n hc _ ih =>
    have hall := lost n hc ih
    rw [← List.append_assoc] at hall
    exact hall

lemma of_append {xs : List Char} (h : Worn (cs ++ xs) ds) : ∃ es ys, ds = es ++ ys ∧ Worn cs es ∧ Worn xs ys := by
  induction cs generalizing ds with
  | nil => exact ⟨[], ds, rfl, nil, h⟩
  | cons c cs ih =>
    cases h with
    | kept _ h =>
      obtain ⟨es, ys, rfl, hcs, hxs⟩ := ih h
      exact ⟨c :: es, ys, rfl, kept c hcs, hxs⟩
    | lost n hc h =>
      obtain ⟨es, ys, rfl, hcs, hxs⟩ := ih h
      exact ⟨_, ys, (List.append_assoc _ _ _).symm, lost n hc hcs, hxs⟩

/-- A character of ASCII stays. -/
lemma of_ascii (h : Worn (c :: cs) ds) (hc : c.toNat < 0x80) : ∃ es, ds = c :: es ∧ Worn cs es := by
  cases h with
  | kept _ h => exact ⟨_, rfl, h⟩
  | lost n hlost h => exact absurd hlost (Nat.not_le.mpr hc)

lemma of_line (h : Worn (line ++ '\n' :: rest) ds) : ∃ l r, ds = l ++ '\n' :: r ∧ Worn line l ∧ Worn rest r := by
  obtain ⟨l, ys, rfl, hline, hys⟩ := h.of_append
  obtain ⟨r, rfl, hrest⟩ := hys.of_ascii (by decide)
  exact ⟨l, r, rfl, hline, hrest⟩

lemma no_newline (h : Worn cs ds) (hcs : '\n' ∉ cs) : '\n' ∉ ds := by
  induction h with
  | nil => exact hcs
  | kept c _ ih =>
    rw [List.mem_cons, not_or] at hcs ⊢
    exact ⟨hcs.1, ih hcs.2⟩
  | lost n _ _ ih =>
    rw [List.mem_cons, not_or] at hcs
    rw [List.mem_append, List.mem_cons, List.mem_replicate, not_or, not_or]
    exact ⟨⟨by decide, fun hn => absurd hn.2 (by decide)⟩, ih hcs.2⟩

lemma head (h : Worn cs ds) (hc : cs.head? = some c) (hlow : c.toNat < 0x80) : ds.head? = some c := by
  cases cs with
  | nil => cases hc
  | cons x cs =>
    cases hc
    obtain ⟨es, rfl, _⟩ := h.of_ascii hlow
    rfl

lemma last (h : Worn cs ds) (hc : cs.getLast? = some c) (hlow : c.toNat < 0x80) : ds.getLast? = some c := by
  obtain ⟨front, rfl⟩ := List.getLast?_eq_some_iff.mp hc
  obtain ⟨es, ys, rfl, _, hend⟩ := h.of_append
  obtain ⟨zs, rfl, hnil⟩ := hend.of_ascii hlow
  cases hnil
  exact List.getLast?_concat

end Worn

/-- Cuts in an encoded text wear it down. -/
lemma worn_decodeChunks (h : chunks.flatten = b ++ encode cs) (hb : ∀ x ∈ b, Continues x) :
    ∃ ds, decodeChunks chunks = List.replicate b.length '\uFFFD' ++ ds ∧ Worn cs ds := by
  induction chunks generalizing b cs with
  | nil =>
    obtain ⟨rfl, hcs⟩ := List.append_eq_nil_iff.mp h.symm
    obtain rfl : cs = [] := encode_injective (hcs.trans rfl)
    exact ⟨[], rfl, Worn.nil⟩
  | cons chunk chunks ih =>
    have hall : decodeChunks (chunk :: chunks) = decodeFrom none chunk ++ decodeChunks chunks := List.flatMap_cons
    rw [List.flatten_cons, List.append_eq_append_iff] at h
    rw [hall]
    obtain ⟨y, rfl, hrest⟩ | ⟨y, rfl, hrest⟩ := h
    · have hdecode := decodeFrom_continuing (fun x hx => hb x (List.mem_append_left _ hx)) []
      obtain ⟨ds, hds, hworn⟩ := ih hrest fun x hx => hb x (List.mem_append_right _ hx)
      rw [List.append_nil] at hdecode
      refine ⟨ds, ?_, hworn⟩
      rw [hdecode, hds, decodeFrom, List.append_nil, List.length_append, List.replicate_add, List.append_assoc]
    · rw [decodeFrom_continuing hb y]
      obtain ⟨front, back, rfl, rfl, hback⟩ | ⟨front, c, back, x, z, rfl, hc, hx, hz, rfl, hback⟩ := encode_cut hrest
      · obtain ⟨ds, hds, hworn⟩ := ih (b := []) hback (by simp)
        refine ⟨front ++ ds, ?_, (Worn.refl front).append hworn⟩
        rw [encode, decodeFrom_encoded, hds, List.append_assoc]
        rfl
      · obtain ⟨⟨q, hopen⟩, hcont⟩ := char_cut c hc hx hz
        obtain ⟨ds, hds, hworn⟩ := ih hback hcont
        refine ⟨front ++ ('\uFFFD' :: List.replicate z.length '\uFFFD' ++ ds), ?_, ?_⟩
        · rw [decodeFrom_encode_append, decodeFrom_open hopen, hds, List.append_assoc, List.append_assoc]
          rfl
        · exact (Worn.refl front).append (Worn.lost z.length (char_cut_high c hc hx hz) hworn)

/-- The lines of a worn text are the worn lines. -/
lemma Worn.lines {texts : List (List Char)} (h : Worn (frame texts) ds) (htexts : ∀ text ∈ texts, '\n' ∉ text) :
    ∃ lines, ds = frame lines ∧ List.Forall₂ Worn texts lines ∧ ∀ line ∈ lines, '\n' ∉ line := by
  induction texts generalizing ds with
  | nil =>
    cases h
    exact ⟨[], rfl, List.Forall₂.nil, by simp⟩
  | cons text texts ih =>
    obtain ⟨htext, hrest⟩ := List.forall_mem_cons.mp htexts
    rw [frame_cons] at h
    obtain ⟨l, r, rfl, hl, hr⟩ := h.of_line
    obtain ⟨lines, rfl, hlines, hno⟩ := ih hr hrest
    exact ⟨l :: lines, (frame_cons l lines).symm, List.Forall₂.cons hl hlines,
      List.forall_mem_cons.mpr ⟨hl.no_newline htext, hno⟩⟩

end Cuts

section Trimming

/-- `trim()` -/
def trim (text : List Char) : List Char := ((text.dropWhile Text.isBlank).reverse.dropWhile Text.isBlank).reverse

lemma trim_eq {text : List Char} (hhead : ∀ c, text.head? = some c → Text.isBlank c = false)
    (hlast : ∀ c, text.getLast? = some c → Text.isBlank c = false) : trim text = text := by
  have hfront : text.dropWhile Text.isBlank = text := by
    cases text with
    | nil => rfl
    | cons c text => rw [List.dropWhile_cons_of_neg (by simp [hhead c rfl])]
  have hback : text.reverse.dropWhile Text.isBlank = text.reverse := by
    cases hrev : text.reverse with
    | nil => rfl
    | cons c rest =>
      have hc : text.getLast? = some c := by rw [← List.head?_reverse, hrev]; rfl
      rw [List.dropWhile_cons_of_neg (by simp [hlast c hc])]
  rw [trim, hfront, hback, List.reverse_reverse]

end Trimming

section Messages

/-- A character that stands by itself in a line: no space and no control. -/
def IsGraphic (c : Char) : Prop := 0x21 ≤ c.toNat ∧ c.toNat ≤ 0x7E

instance decidableGraphic (c : Char) : Decidable (IsGraphic c) := inferInstanceAs (Decidable (_ ∧ _))

lemma IsGraphic.notBlank {c : Char} (h : IsGraphic c) : Text.isBlank c = false := by
  obtain ⟨hlow, hhigh⟩ := h
  have hval : c.val.toNat = c.toNat := rfl
  have hne : ∀ d : Char, (d.toNat < 0x21 ∨ 0x7E < d.toNat) → c ≠ d := by
    rintro d hd rfl
    omega
  have hle : ∀ d : Char, d ≤ c ↔ d.toNat ≤ c.toNat := fun d => Iff.rfl
  have hge : ∀ d : Char, c ≤ d ↔ c.toNat ≤ d.toNat := fun d => Iff.rfl
  have htab : ¬ c ≤ '\r' := by
    rw [hge]
    have : '\r'.toNat = 13 := rfl
    omega
  have hquad : ¬ '\u2000' ≤ c := by
    rw [hle]
    have : '\u2000'.toNat = 0x2000 := rfl
    omega
  simp only [Text.isBlank, htab, hquad, decide_false, Bool.and_false, Bool.false_and, Bool.or_false, Bool.false_or,
    Bool.or_eq_false_iff, decide_eq_false_iff_not]
  refine ⟨⟨⟨⟨⟨⟨⟨⟨?_, ?_⟩, ?_⟩, ?_⟩, ?_⟩, ?_⟩, ?_⟩, ?_⟩, ?_⟩
  all_goals
    apply hne
    decide

lemma graphic_digit {c : Char} (h : c.isDigit = true) : IsGraphic c := by
  have hrange : 48 ≤ c.toNat ∧ c.toNat ≤ 57 := by
    simpa [Char.isDigit, UInt32.le_iff_toNat_le] using h
  exact ⟨by omega, by omega⟩

lemma graphic_digits (ds : List (Fin 10)) : ∀ c ∈ digitText ds, IsGraphic c := by
  intro c hc
  obtain ⟨d, _, rfl⟩ := List.mem_map.mp hc
  exact graphic_digit (isDigit_digitChar d)

lemma graphic_number (n : Number) : ∀ c ∈ n.text, IsGraphic c := by
  have hdecimal : ∀ d : Decimal, ∀ c ∈ d.text, IsGraphic c := by
    intro d c hc
    obtain hc | hc := List.mem_append.mp hc
    · obtain hc | hc := List.mem_append.mp hc
      · exact graphic_digits _ c hc
      · unfold fractionText at hc
        split_ifs at hc with hnil
        · cases hc
        · obtain rfl | hc := List.mem_cons.mp hc
          · exact ⟨by decide, by decide⟩
          · exact graphic_digits _ c hc
    · unfold exponentText at hc
      split at hc
      · cases hc
      · next e =>
        obtain rfl | hc := List.mem_cons.mp hc
        · exact ⟨by decide, by decide⟩
        · obtain rfl | hc := List.mem_cons.mp hc
          · split_ifs <;> exact ⟨by decide, by decide⟩
          · exact graphic_digit (Nat.isDigit_of_mem_toDigits (by decide) (by decide) hc)
  have hnull : ∀ c ∈ ['n', 'u', 'l', 'l'], IsGraphic c := by
    simp only [List.forall_mem_cons, List.not_mem_nil, false_implies, implies_true, and_true]
    exact ⟨by decide, by decide, by decide, by decide⟩
  cases n with
  | nan => exact hnull
  | infinity _ => exact hnull
  | zero =>
    simp only [Number.text, List.forall_mem_singleton]
    decide
  | finite negative d =>
    intro c hc
    obtain hc | hc := List.mem_append.mp hc
    · cases negative with
      | false => cases hc
      | true =>
        obtain rfl := List.mem_singleton.mp hc
        exact ⟨by decide, by decide⟩
    · exact hdecimal d c hc

lemma printable_escape (u : UInt16) : ∀ c ∈ escapeUnit u, 0x20 ≤ c.toNat := by
  have hhex : ∀ n < 16, 0x20 ≤ (hexDigit n).toNat := by decide
  have hsize := u.toNat_lt
  unfold escapeUnit
  split
  · next c hc =>
    have hshort : 0x20 ≤ c.toNat := by
      unfold shortEscape at hc
      split_ifs at hc <;> cases hc <;> decide
    simp only [List.forall_mem_cons, List.not_mem_nil, false_implies, implies_true, and_true]
    exact ⟨by decide, hshort⟩
  · split_ifs with hlow
    · simp only [hex4, List.forall_mem_cons, List.not_mem_nil, false_implies, implies_true, and_true]
      exact ⟨by decide, by decide, hhex _ (by omega), hhex _ (by omega), hhex _ (by omega), hhex _ (by omega)⟩
    · have hplain := toNat_unitChar fun hs => hlow (Or.inr hs)
      simp only [List.forall_mem_singleton]
      omega

lemma printable_quoteUnits (s : JsString) : ∀ c ∈ quoteUnits s, 0x20 ≤ c.toNat := by
  induction s using quoteUnits.induct with
  | case1 => simp [quoteUnits]
  | case2 u => exact printable_escape u
  | case3 u v rest hpair ih =>
    rw [quoteUnits, if_pos hpair]
    have hn := toNat_pairChar hpair.1 hpair.2
    exact List.forall_mem_cons.mpr ⟨by omega, ih⟩
  | case4 u v rest hpair ih =>
    rw [quoteUnits, if_neg hpair]
    exact List.forall_mem_append.mpr ⟨printable_escape u, ih⟩

lemma printable_quote (s : JsString) : ∀ c ∈ quote s, 0x20 ≤ c.toNat := by
  rw [quote]
  refine List.forall_mem_append.mpr ⟨List.forall_mem_cons.mpr ⟨by decide, printable_quoteUnits s⟩, ?_⟩
  simp only [List.forall_mem_singleton]
  decide

lemma printable_joined {texts : List (List Char)} (h : ∀ text ∈ texts, ∀ c ∈ text, 0x20 ≤ c.toNat) :
    ∀ c ∈ joined texts, 0x20 ≤ c.toNat := by
  induction texts with
  | nil => simp [joined]
  | cons text rest ih =>
    obtain ⟨htext, hrest⟩ := List.forall_mem_cons.mp h
    by_cases hne : rest = []
    · rw [hne]
      exact htext
    · rw [joined_cons text hne]
      exact List.forall_mem_append.mpr ⟨htext, List.forall_mem_cons.mpr ⟨by decide, ih hrest⟩⟩

/-- No control character is in the text of a value. -/
lemma printable_render {v : Value} (hv : Plain v) : ∀ c ∈ v.render, 0x20 ≤ c.toNat := by
  induction hv with
  | null =>
    have hnull : ∀ c ∈ ['n', 'u', 'l', 'l'], 0x20 ≤ c.toNat := by
      simp only [List.forall_mem_cons, List.not_mem_nil, false_implies, implies_true, and_true]
      decide
    exact hnull
  | bool b =>
    have htrue : ∀ c ∈ ['t', 'r', 'u', 'e'], 0x20 ≤ c.toNat := by
      simp only [List.forall_mem_cons, List.not_mem_nil, false_implies, implies_true, and_true]
      decide
    have hfalse : ∀ c ∈ ['f', 'a', 'l', 's', 'e'], 0x20 ≤ c.toNat := by
      simp only [List.forall_mem_cons, List.not_mem_nil, false_implies, implies_true, and_true]
      decide
    cases b with
    | true => exact htrue
    | false => exact hfalse
  | @number n _ =>
    intro c hc
    have hgraphic := graphic_number n c hc
    exact (Nat.le_succ _).trans hgraphic.1
  | string s => exact printable_quote s
  | @array items _ ih =>
    have hitems : ∀ text ∈ renderItems items, ∀ c ∈ text, 0x20 ≤ c.toNat := by
      induction items with
      | nil => simp [renderItems]
      | cons v rest ihs =>
        obtain ⟨hv, hrest⟩ := List.forall_mem_cons.mp ih
        exact List.forall_mem_cons.mpr ⟨hv, ihs (by simp_all) hrest⟩
    rw [render]
    refine List.forall_mem_append.mpr ⟨List.forall_mem_cons.mpr ⟨by decide, printable_joined hitems⟩, ?_⟩
    simp only [List.forall_mem_singleton]
    decide
  | @object members _ _ ih =>
    have hmembers : ∀ text ∈ renderMembers members, ∀ c ∈ text, 0x20 ≤ c.toNat := by
      clear * - ih
      induction members with
      | nil => simp [renderMembers]
      | cons m rest ihs =>
        obtain ⟨k, v⟩ := m
        obtain ⟨hv, hrest⟩ := List.forall_mem_cons.mp ih
        refine List.forall_mem_cons.mpr ⟨?_, ihs hrest⟩
        exact List.forall_mem_append.mpr ⟨printable_quote k, List.forall_mem_cons.mpr ⟨by decide, hv⟩⟩
    rw [render]
    refine List.forall_mem_append.mpr ⟨List.forall_mem_cons.mpr ⟨by decide, printable_joined hmembers⟩, ?_⟩
    simp only [List.forall_mem_singleton]
    decide

/-- The text of a value begins and ends with a character that `trim` leaves. -/
lemma render_edges {v : Value} (hv : Plain v) :
    ∃ c d, v.render.head? = some c ∧ v.render.getLast? = some d ∧ IsGraphic c ∧ IsGraphic d := by
  cases hv with
  | null => exact ⟨'n', 'l', rfl, rfl, by decide, by decide⟩
  | bool b =>
    cases b with
    | true => exact ⟨'t', 'e', rfl, rfl, by decide, by decide⟩
    | false => exact ⟨'f', 'e', rfl, rfl, by decide, by decide⟩
  | @number n hn =>
    obtain ⟨c, tail, hc, _⟩ := number_head hn
    have hne : n.text ≠ [] := by rw [hc]; exact List.cons_ne_nil _ _
    refine ⟨c, n.text.getLast hne, by rw [render, hc]; rfl, List.getLast?_eq_some_getLast hne, ?_, ?_⟩
    · exact graphic_number n c (hc ▸ List.mem_cons_self)
    · exact graphic_number n _ (List.getLast_mem hne)
  | string s => exact ⟨'"', '"', rfl, List.getLast?_concat, by decide, by decide⟩
  | @array items _ => exact ⟨'[', ']', rfl, List.getLast?_concat, by decide, by decide⟩
  | @object members _ _ => exact ⟨'{', '}', rfl, List.getLast?_concat, by decide, by decide⟩

lemma render_line {v : Value} (hv : Plain v) : '\n' ∉ v.render := by
  intro h
  exact absurd (printable_render hv _ h) (by decide)

lemma trim_render {v : Value} (hv : Plain v) : trim v.render = v.render := by
  obtain ⟨c, d, hhead, hlast, hc, hd⟩ := render_edges hv
  apply trim_eq
  · intro x hx
    rw [hhead] at hx
    cases hx
    exact hc.notBlank
  · intro x hx
    rw [hlast] at hx
    cases hx
    exact hd.notBlank

lemma render_ne_nil {v : Value} (hv : Plain v) : v.render ≠ [] := by
  obtain ⟨c, _, hhead, _⟩ := render_edges hv
  intro hnil
  rw [hnil] at hhead
  cases hhead

end Messages

end VivimOmega.Library

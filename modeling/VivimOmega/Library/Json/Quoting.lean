import Mathlib

/-! JSON string literals: strings of UTF-16 code units, quoted as well-formed Unicode text. -/

namespace VivimOmega.Library.Json

abbrev JsString := List UInt16

instance lawfulBEq_jsString : LawfulBEq JsString := inferInstanceAs (LawfulBEq (List UInt16))

def IsLead (u : UInt16) : Prop := 0xD800 ≤ u.toNat ∧ u.toNat < 0xDC00

def IsTrail (u : UInt16) : Prop := 0xDC00 ≤ u.toNat ∧ u.toNat < 0xE000

def IsSurrogate (u : UInt16) : Prop := 0xD800 ≤ u.toNat ∧ u.toNat < 0xE000

instance (u : UInt16) : Decidable (IsLead u) := inferInstanceAs (Decidable (_ ∧ _))

instance (u : UInt16) : Decidable (IsTrail u) := inferInstanceAs (Decidable (_ ∧ _))

instance (u : UInt16) : Decidable (IsSurrogate u) := inferInstanceAs (Decidable (_ ∧ _))

/-- The code units of one character. -/
def units (c : Char) : JsString :=
  if c.toNat < 0x10000 then [UInt16.ofNat c.toNat]
  else [UInt16.ofNat (0xD800 + (c.toNat - 0x10000) / 0x400),
    UInt16.ofNat (0xDC00 + (c.toNat - 0x10000) % 0x400)]

def unitChar (u : UInt16) : Char := Char.ofNat u.toNat

def pairChar (lead trail : UInt16) : Char :=
  Char.ofNat (0x10000 + (lead.toNat - 0xD800) * 0x400 + (trail.toNat - 0xDC00))

/-- The string of a text. -/
def ofText (s : String) : JsString := s.toList.flatMap units

/-- The text of a string, where a lone surrogate becomes the replacement character. -/
def wellFormed : JsString → List Char
  | [] => []
  | [u] => [if IsSurrogate u then '\uFFFD' else unitChar u]
  | u :: v :: rest =>
    if IsLead u ∧ IsTrail v then pairChar u v :: wellFormed rest
    else (if IsSurrogate u then '\uFFFD' else unitChar u) :: wellFormed (v :: rest)

def toText (s : JsString) : String := String.ofList (wellFormed s)

section Units

lemma toNat_ofNat {n : ℕ} (h : n.isValidChar) : (Char.ofNat n).toNat = n := by
  unfold Char.ofNat
  rw [dif_pos h]
  rfl

lemma toNat_unitChar {u : UInt16} (h : ¬ IsSurrogate u) : (unitChar u).toNat = u.toNat := by
  have hsize := u.toNat_lt
  apply toNat_ofNat
  unfold Nat.isValidChar
  unfold IsSurrogate at h
  omega

lemma units_unitChar {u : UInt16} (h : ¬ IsSurrogate u) : units (unitChar u) = [u] := by
  have hsize := u.toNat_lt
  unfold units
  rw [toNat_unitChar h, if_pos (by omega), UInt16.ofNat_toNat]

lemma toNat_pairChar {u v : UInt16} (hu : IsLead u) (hv : IsTrail v) :
    (pairChar u v).toNat = 0x10000 + (u.toNat - 0xD800) * 0x400 + (v.toNat - 0xDC00) := by
  apply toNat_ofNat
  unfold Nat.isValidChar
  unfold IsLead at hu
  unfold IsTrail at hv
  omega

lemma units_pairChar {u v : UInt16} (hu : IsLead u) (hv : IsTrail v) :
    units (pairChar u v) = [u, v] := by
  have hn := toNat_pairChar hu hv
  unfold IsLead at hu
  unfold IsTrail at hv
  unfold units
  rw [if_neg (by omega), hn]
  have hlead : 0xD800 + (0x10000 + (u.toNat - 0xD800) * 0x400 + (v.toNat - 0xDC00) - 0x10000) / 0x400
      = u.toNat := by omega
  have htrail : 0xDC00 + (0x10000 + (u.toNat - 0xD800) * 0x400 + (v.toNat - 0xDC00) - 0x10000) % 0x400
      = v.toNat := by omega
  rw [hlead, htrail, UInt16.ofNat_toNat, UInt16.ofNat_toNat]

lemma wellFormed_plain {u : UInt16} (hu : ¬ IsSurrogate u) (s : JsString) :
    wellFormed (u :: s) = unitChar u :: wellFormed s := by
  cases s with
  | nil => rw [wellFormed, wellFormed, if_neg hu]
  | cons v rest =>
    have hlead : ¬ (IsLead u ∧ IsTrail v) := fun h => hu ⟨h.1.1, by have := h.1.2; omega⟩
    rw [wellFormed, if_neg hlead, if_neg hu]

lemma wellFormed_units (c : Char) {s : JsString} {cs : List Char} (h : wellFormed s = cs) :
    wellFormed (units c ++ s) = c :: cs := by
  have hvalid : c.toNat < 0xD800 ∨ (0xDFFF < c.toNat ∧ c.toNat < 0x110000) := c.valid
  have hsize : ∀ n : ℕ, n < 0x10000 → (UInt16.ofNat n).toNat = n := fun n hn => by
    rw [UInt16.toNat_ofNat']
    exact Nat.mod_eq_of_lt hn
  unfold units
  split_ifs with hc
  · have hn := hsize c.toNat hc
    have hs : ¬ IsSurrogate (UInt16.ofNat c.toNat) := by
      unfold IsSurrogate
      omega
    rw [List.singleton_append, wellFormed_plain hs, h, unitChar, hn, Char.ofNat_toNat]
  · have hlead := hsize (0xD800 + (c.toNat - 0x10000) / 0x400) (by omega)
    have htrail := hsize (0xDC00 + (c.toNat - 0x10000) % 0x400) (by omega)
    have hpair : IsLead (UInt16.ofNat (0xD800 + (c.toNat - 0x10000) / 0x400)) ∧
        IsTrail (UInt16.ofNat (0xDC00 + (c.toNat - 0x10000) % 0x400)) := by
      unfold IsLead IsTrail
      omega
    have hvalue : 0x10000 + (0xD800 + (c.toNat - 0x10000) / 0x400 - 0xD800) * 0x400
        + (0xDC00 + (c.toNat - 0x10000) % 0x400 - 0xDC00) = c.toNat := by omega
    rw [List.cons_append, List.singleton_append, wellFormed, if_pos hpair, h, pairChar, hlead, htrail,
      hvalue, Char.ofNat_toNat]

end Units

section Escapes

def hexDigit (n : ℕ) : Char := "0123456789abcdef".toList.getD n '0'

def hexValue (c : Char) : Option ℕ :=
  if '0' ≤ c ∧ c ≤ '9' then some (c.toNat - 48)
  else if 'a' ≤ c ∧ c ≤ 'f' then some (c.toNat - 87)
  else if 'A' ≤ c ∧ c ≤ 'F' then some (c.toNat - 55)
  else none

lemma hexValue_hexDigit {n : ℕ} (h : n < 16) : hexValue (hexDigit n) = some n := by
  interval_cases n <;> decide

def hex4 (u : UInt16) : List Char :=
  [hexDigit (u.toNat / 4096), hexDigit (u.toNat / 256 % 16), hexDigit (u.toNat / 16 % 16),
    hexDigit (u.toNat % 16)]

def hexUnit (a b c d : Char) : Option UInt16 := do
  let a ← hexValue a
  let b ← hexValue b
  let c ← hexValue c
  let d ← hexValue d
  return UInt16.ofNat (a * 4096 + b * 256 + c * 16 + d)

lemma hexUnit_hex4 (u : UInt16) :
    hexUnit (hexDigit (u.toNat / 4096)) (hexDigit (u.toNat / 256 % 16))
      (hexDigit (u.toNat / 16 % 16)) (hexDigit (u.toNat % 16)) = some u := by
  have hsize := u.toNat_lt
  unfold hexUnit
  rw [hexValue_hexDigit (by omega), hexValue_hexDigit (by omega), hexValue_hexDigit (by omega),
    hexValue_hexDigit (by omega)]
  have hn : u.toNat / 4096 * 4096 + u.toNat / 256 % 16 * 256 + u.toNat / 16 % 16 * 16
      + u.toNat % 16 = u.toNat := by omega
  simp only [Option.bind_eq_bind, Option.bind_some, Option.pure_def, hn, UInt16.ofNat_toNat]

/-- The character after the backslash of a short escape. -/
def shortEscape (u : UInt16) : Option Char :=
  if u.toNat = 0x22 then some '"'
  else if u.toNat = 0x5C then some '\\'
  else if u.toNat = 0x08 then some 'b'
  else if u.toNat = 0x0C then some 'f'
  else if u.toNat = 0x0A then some 'n'
  else if u.toNat = 0x0D then some 'r'
  else if u.toNat = 0x09 then some 't'
  else none

def unescape (c : Char) : Option UInt16 :=
  if c = '"' then some 0x22
  else if c = '\\' then some 0x5C
  else if c = '/' then some 0x2F
  else if c = 'b' then some 0x08
  else if c = 'f' then some 0x0C
  else if c = 'n' then some 0x0A
  else if c = 'r' then some 0x0D
  else if c = 't' then some 0x09
  else none

lemma unescape_shortEscape {u : UInt16} {c : Char} (h : shortEscape u = some c) :
    c ≠ 'u' ∧ unescape c = some u := by
  unfold shortEscape at h
  split_ifs at h with h1 h2 h3 h4 h5 h6 h7 <;> cases h <;> refine ⟨by decide, ?_⟩
  all_goals
    rw [← UInt16.ofNat_toNat (x := u)]
    simp only [*]
    decide

def escapeUnit (u : UInt16) : List Char :=
  match shortEscape u with
  | some c => ['\\', c]
  | none => if u.toNat < 0x20 ∨ IsSurrogate u then '\\' :: 'u' :: hex4 u else [unitChar u]

/-- The inside of `JSON.stringify` of a string: a lone surrogate is escaped, a pair is not. -/
def quoteUnits : JsString → List Char
  | [] => []
  | [u] => escapeUnit u
  | u :: v :: rest =>
    if IsLead u ∧ IsTrail v then pairChar u v :: quoteUnits rest
    else escapeUnit u ++ quoteUnits (v :: rest)

def quote (s : JsString) : List Char := '"' :: quoteUnits s ++ ['"']

end Escapes

section Reading

/-- Reads a string literal after its opening quote. -/
def unquote : List Char → Option (JsString × List Char)
  | [] => none
  | c :: rest =>
    if c = '"' then some ([], rest)
    else if c = '\\' then
      match rest with
      | [] => none
      | e :: tail =>
        if e = 'u' then
          match tail with
          | w :: x :: y :: z :: after => do
            let u ← hexUnit w x y z
            let (s, left) ← unquote after
            return (u :: s, left)
          | _ => none
        else do
          let u ← unescape e
          let (s, left) ← unquote tail
          return (u :: s, left)
    else if c.toNat < 0x20 then none
    else do
      let (s, left) ← unquote rest
      return (units c ++ s, left)

lemma unquote_quoteMark (rest : List Char) : unquote ('"' :: rest) = some ([], rest) := by
  unfold unquote
  rfl

lemma unquote_plain {c : Char} {rest left : List Char} {s : JsString} (hquote : c ≠ '"')
    (hslash : c ≠ '\\') (hlow : 0x20 ≤ c.toNat) (h : unquote rest = some (s, left)) :
    unquote (c :: rest) = some (units c ++ s, left) := by
  unfold unquote
  rw [if_neg hquote, if_neg hslash, if_neg (by omega), h]
  rfl

lemma unquote_short {c : Char} {u : UInt16} {rest left : List Char} {s : JsString}
    (hc : c ≠ 'u') (hu : unescape c = some u) (h : unquote rest = some (s, left)) :
    unquote ('\\' :: c :: rest) = some (u :: s, left) := by
  unfold unquote
  rw [if_neg (by decide), if_pos rfl]
  simp only [if_neg hc, hu, h]
  rfl

lemma unquote_long {w x y z : Char} {u : UInt16} {rest left : List Char} {s : JsString}
    (hu : hexUnit w x y z = some u) (h : unquote rest = some (s, left)) :
    unquote ('\\' :: 'u' :: w :: x :: y :: z :: rest) = some (u :: s, left) := by
  unfold unquote
  rw [if_neg (by decide), if_pos rfl]
  simp only [if_true, hu, h]
  rfl

lemma plain_of_shortEscape {u : UInt16} (h : shortEscape u = none) (hs : ¬ IsSurrogate u) :
    unitChar u ≠ '"' ∧ unitChar u ≠ '\\' := by
  have hn := toNat_unitChar hs
  unfold shortEscape at h
  split_ifs at h with h1 h2
  constructor
  · intro he
    rw [he] at hn
    exact h1 hn.symm
  · intro he
    rw [he] at hn
    exact h2 hn.symm

lemma unquote_escapeUnit {u : UInt16} {rest left : List Char} {s : JsString}
    (h : unquote rest = some (s, left)) :
    unquote (escapeUnit u ++ rest) = some (u :: s, left) := by
  unfold escapeUnit
  split
  · rename_i c hc
    obtain ⟨hne, hu⟩ := unescape_shortEscape hc
    exact unquote_short hne hu h
  · rename_i hc
    split_ifs with hlow
    · exact unquote_long (hexUnit_hex4 u) h
    · have hs : ¬ IsSurrogate u := fun hs => hlow (Or.inr hs)
      obtain ⟨hquote, hslash⟩ := plain_of_shortEscape hc hs
      have hn := toNat_unitChar hs
      have hh := unquote_plain hquote hslash (by omega) h
      rwa [units_unitChar hs] at hh

lemma unquote_pair {u v : UInt16} {rest left : List Char} {s : JsString} (hu : IsLead u)
    (hv : IsTrail v) (h : unquote rest = some (s, left)) :
    unquote (pairChar u v :: rest) = some (u :: v :: s, left) := by
  have hn := toNat_pairChar hu hv
  have hquote : pairChar u v ≠ '"' := by
    intro he
    rw [he] at hn
    have : '"'.toNat = 0x22 := rfl
    omega
  have hslash : pairChar u v ≠ '\\' := by
    intro he
    rw [he] at hn
    have : '\\'.toNat = 0x5C := rfl
    omega
  have hh := unquote_plain hquote hslash (by omega) h
  rwa [units_pairChar hu hv] at hh

/-- A quoted string reads back as the string. -/
lemma unquote_quoteUnits (s : JsString) (rest : List Char) :
    unquote (quoteUnits s ++ '"' :: rest) = some (s, rest) := by
  induction s using quoteUnits.induct with
  | case1 => exact unquote_quoteMark rest
  | case2 u => exact unquote_escapeUnit (unquote_quoteMark rest)
  | case3 u v tail hpair ih =>
    rw [quoteUnits, if_pos hpair]
    exact unquote_pair hpair.1 hpair.2 ih
  | case4 u v tail hpair ih =>
    rw [quoteUnits, if_neg hpair, List.append_assoc]
    exact unquote_escapeUnit ih

end Reading

end VivimOmega.Library.Json

import Mathlib

/-! Numbers as their shortest decimal: the text of `Number::toString` and the JSON number grammar. -/

namespace VivimOmega.Library.Json

/-- The decimal `0.d₁d₂… × 10 ^ point`, with no zero at either end of the digits. -/
instance neZero_ten : NeZero (10 : ℕ) := ⟨by decide⟩

structure Decimal where
  digits : List (Fin 10)
  point : ℤ
  nonempty : digits ≠ []
  leading : digits.head nonempty ≠ 0
  trailing : digits.getLast nonempty ≠ 0
  deriving DecidableEq

/-- Numbers up to `===`, which does not tell the two zeros apart. -/
inductive Number
  | nan
  | infinity (negative : Bool)
  | zero
  | finite (negative : Bool) (d : Decimal)
  deriving DecidableEq

def Number.IsFinite : Number → Prop
  | .nan => False
  | .infinity _ => False
  | .zero => True
  | .finite _ _ => True

instance (n : Number) : Decidable n.IsFinite := by
  cases n <;> unfold Number.IsFinite <;> infer_instance

def digitChar (d : Fin 10) : Char := Char.ofNat (48 + d.val)

def oneDigit : Decimal := ⟨[1], 1, by decide, by decide, by decide⟩

def digitText (ds : List (Fin 10)) : List Char := ds.map digitChar

/-- The digits before the point, those after it, and the exponent where one is written. -/
def Decimal.parts (d : Decimal) : List (Fin 10) × List (Fin 10) × Option ℤ :=
  let k : ℤ := d.digits.length
  if k ≤ d.point ∧ d.point ≤ 21 then
    (d.digits ++ List.replicate (d.point - k).toNat 0, [], none)
  else if 0 < d.point ∧ d.point ≤ 21 then
    (d.digits.take d.point.toNat, d.digits.drop d.point.toNat, none)
  else if -6 < d.point ∧ d.point ≤ 0 then
    ([0], List.replicate (-d.point).toNat 0 ++ d.digits, none)
  else (d.digits.take 1, d.digits.drop 1, some (d.point - 1))

def fractionText (ds : List (Fin 10)) : List Char := if ds = [] then [] else '.' :: digitText ds

def exponentText : Option ℤ → List Char
  | none => []
  | some e => 'e' :: (if e < 0 then '-' else '+') :: Nat.toDigits 10 e.natAbs

def Decimal.text (d : Decimal) : List Char :=
  digitText d.parts.1 ++ fractionText d.parts.2.1 ++ exponentText d.parts.2.2

def signText (negative : Bool) : List Char := if negative then ['-'] else []

/-- `JSON.stringify` of a number, where one that is not finite becomes `null`. -/
def Number.text : Number → List Char
  | .nan => "null".toList
  | .infinity _ => "null".toList
  | .zero => ['0']
  | .finite negative d => signText negative ++ d.text

section Reading

def digitOf (c : Char) : Fin 10 := Fin.ofNat 10 (c.toNat - 48)

def exponentPart (cs : List Char) : Option (ℤ × List Char) :=
  if cs.head? = some 'e' ∨ cs.head? = some 'E' then
    let rest := cs.tail
    let digits := if rest.head? = some '-' ∨ rest.head? = some '+' then rest.tail else rest
    let value : ℤ := Nat.ofDigitChars 10 (digits.takeWhile Char.isDigit) 0
    if digits.takeWhile Char.isDigit = [] then none
    else some (if rest.head? = some '-' then -value else value, digits.dropWhile Char.isDigit)
  else some (0, cs)

def fractionPart (cs : List Char) : Option (List Char × List Char) :=
  if cs.head? = some '.' then
    if cs.tail.takeWhile Char.isDigit = [] then none
    else some (cs.tail.takeWhile Char.isDigit, cs.tail.dropWhile Char.isDigit)
  else some ([], cs)

/-- The digits that carry value: none of the zeros at either end. -/
def significant (digits : List (Fin 10)) : List (Fin 10) :=
  (digits.dropWhile (· = 0)).rdropWhile (· = 0)

lemma head_significant {digits : List (Fin 10)} (h : significant digits ≠ []) :
    (significant digits).head h ≠ 0 := by
  have hpre : significant digits <+: digits.dropWhile (· = 0) := List.rdropWhile_prefix _ _
  have hlead : digits.dropWhile (· = 0) ≠ [] := by
    intro he
    rw [he] at hpre
    exact h (List.prefix_nil.mp hpre)
  rw [hpre.head h]
  simpa using List.head_dropWhile_not (fun x : Fin 10 => decide (x = 0)) hlead

lemma getLast_significant {digits : List (Fin 10)} (h : significant digits ≠ []) :
    (significant digits).getLast h ≠ 0 := by
  have hh := List.rdropWhile_last_not (fun x : Fin 10 => decide (x = 0)) _ h
  exact fun he => hh (decide_eq_true he)

/-- The number of a digit string whose point stands after `point` of its digits. -/
def Number.ofDigits (negative : Bool) (digits : List (Fin 10)) (point : ℤ) : Number :=
  if h : significant digits = [] then .zero
  else .finite negative
    { digits := significant digits
      point := point - (digits.takeWhile (· = 0)).length
      nonempty := h
      leading := head_significant h
      trailing := getLast_significant h }

/-- Reads a number of the JSON grammar, which allows no superfluous leading zero. -/
def parseNumber (cs : List Char) : Option (Number × List Char) := do
  let body := if cs.head? = some '-' then cs.tail else cs
  let whole := body.takeWhile Char.isDigit
  if whole = [] ∨ (whole.head? = some '0' ∧ whole ≠ ['0']) then none
  else
    let (fraction, afterFraction) ← fractionPart (body.dropWhile Char.isDigit)
    let (exponent, left) ← exponentPart afterFraction
    return (Number.ofDigits (cs.head? = some '-') ((whole ++ fraction).map digitOf)
      (whole.length + exponent), left)

end Reading

section RoundTrip

/-- What may follow a number for its end to be seen. -/
def EndsNumber (rest : List Char) : Prop :=
  ∀ c, rest.head? = some c → c.isDigit = false ∧ c ≠ '.' ∧ c ≠ 'e' ∧ c ≠ 'E'

lemma isDigit_digitChar (d : Fin 10) : (digitChar d).isDigit = true := by
  revert d
  decide

lemma digitOf_digitChar (d : Fin 10) : digitOf (digitChar d) = d := by
  revert d
  decide

lemma digitChar_eq_zero {d : Fin 10} (h : digitChar d = '0') : d = 0 := by
  have hh := congrArg digitOf h
  rw [digitOf_digitChar] at hh
  rw [hh]
  decide

lemma map_digitOf_digitText (ds : List (Fin 10)) : (digitText ds).map digitOf = ds := by
  unfold digitText
  rw [List.map_map]
  conv_rhs => rw [← List.map_id ds]
  exact List.map_congr_left fun d _ => digitOf_digitChar d

lemma digitText_eq_nil {ds : List (Fin 10)} : digitText ds = [] ↔ ds = [] := by
  simp [digitText]

lemma length_digitText (ds : List (Fin 10)) : (digitText ds).length = ds.length :=
  List.length_map _

lemma takeWhile_boundary {α : Type} {p : α → Bool} {xs rest : List α} (hxs : ∀ x ∈ xs, p x = true)
    (hrest : ∀ x, rest.head? = some x → p x = false) :
    (xs ++ rest).takeWhile p = xs ∧ (xs ++ rest).dropWhile p = rest := by
  rw [List.takeWhile_append_of_pos hxs, List.dropWhile_append_of_pos hxs]
  cases rest with
  | nil => simp
  | cons x tail => simp [hrest x rfl]

lemma digitText_boundary (ds : List (Fin 10)) {rest : List Char}
    (hrest : ∀ c, rest.head? = some c → c.isDigit = false) :
    (digitText ds ++ rest).takeWhile Char.isDigit = digitText ds ∧
      (digitText ds ++ rest).dropWhile Char.isDigit = rest := by
  apply takeWhile_boundary _ hrest
  intro c hc
  obtain ⟨d, _, rfl⟩ := List.mem_map.mp hc
  exact isDigit_digitChar d

lemma ends_of_head {rest : List Char} {c : Char} (h : rest.head? = some c)
    (hc : c.isDigit = false ∧ c ≠ '.' ∧ c ≠ 'e' ∧ c ≠ 'E') : EndsNumber rest := by
  intro x hx
  rw [h] at hx
  cases hx
  exact hc

lemma fractionPart_fractionText (ds : List (Fin 10)) {rest : List Char}
    (hrest : ∀ c, rest.head? = some c → c.isDigit = false ∧ c ≠ '.') :
    fractionPart (fractionText ds ++ rest) = some (digitText ds, rest) := by
  unfold fractionPart fractionText
  by_cases hds : ds = []
  · rw [if_pos hds, hds, List.nil_append, if_neg]
    · rfl
    · exact fun h => (hrest '.' h).2 rfl
  · obtain ⟨htake, hdrop⟩ := digitText_boundary ds fun c hc => (hrest c hc).1
    rw [if_neg hds, List.cons_append, List.head?_cons, if_pos rfl, List.tail_cons, htake, hdrop,
      if_neg (mt digitText_eq_nil.mp hds)]

lemma exponentPart_none {rest : List Char} (hrest : EndsNumber rest) :
    exponentPart rest = some (0, rest) := by
  unfold exponentPart
  rw [if_neg]
  rintro (h | h)
  · exact (hrest 'e' h).2.2.1 rfl
  · exact (hrest 'E' h).2.2.2 rfl

lemma exponentPart_exponentText (e : Option ℤ) {rest : List Char} (hrest : EndsNumber rest) :
    exponentPart (exponentText e ++ rest) = some (e.getD 0, rest) := by
  cases e with
  | none => exact exponentPart_none hrest
  | some e =>
    have hdigits : ∀ c ∈ Nat.toDigits 10 e.natAbs, c.isDigit = true := fun c hc =>
      Nat.isDigit_of_mem_toDigits (by omega) (by omega) hc
    obtain ⟨htake, hdrop⟩ := takeWhile_boundary hdigits fun c hc => (hrest c hc).1
    have hne : Nat.toDigits 10 e.natAbs ≠ [] := Nat.toDigits_ne_nil
    unfold exponentPart exponentText
    by_cases he : e < 0
    · simp [he, htake, hdrop, hne, Nat.ofDigitChars_ten_toDigits, abs_of_neg he]
    · simp [he, htake, hdrop, hne, Nat.ofDigitChars_ten_toDigits, abs_of_nonneg (not_lt.mp he)]

lemma exponentText_head {e : Option ℤ} {rest : List Char} (hrest : EndsNumber rest) :
    ∀ c, (exponentText e ++ rest).head? = some c → c.isDigit = false ∧ c ≠ '.' := by
  intro c hc
  cases e with
  | none => exact ⟨(hrest c hc).1, (hrest c hc).2.1⟩
  | some e =>
    cases hc
    exact ⟨by decide, by decide⟩

lemma fractionText_head (ds : List (Fin 10)) {rest : List Char}
    (hrest : ∀ c, rest.head? = some c → c.isDigit = false ∧ c ≠ '.') :
    ∀ c, (fractionText ds ++ rest).head? = some c → c.isDigit = false := by
  intro c hc
  unfold fractionText at hc
  by_cases hds : ds = []
  · rw [if_pos hds, List.nil_append] at hc
    exact (hrest c hc).1
  · rw [if_neg hds] at hc
    cases hc
    decide

lemma head_digitText {ds : List (Fin 10)} (rest : List Char) (hds : ds ≠ []) :
    ∃ d tail, ds = d :: tail ∧ (digitText ds ++ rest).head? = some (digitChar d) := by
  cases ds with
  | nil => exact absurd rfl hds
  | cons d tail => exact ⟨d, tail, rfl, rfl⟩

lemma digitChar_ne_minus (d : Fin 10) : digitChar d ≠ '-' := by
  revert d
  decide

/-- The optional sign is seen, since no digit is one. -/
lemma sign_read (negative : Bool) {ds : List (Fin 10)} (rest : List Char) (hds : ds ≠ []) :
    (decide ((signText negative ++ (digitText ds ++ rest)).head? = some '-') = negative) ∧
      (if (signText negative ++ (digitText ds ++ rest)).head? = some '-'
        then (signText negative ++ (digitText ds ++ rest)).tail
        else signText negative ++ (digitText ds ++ rest)) = digitText ds ++ rest := by
  obtain ⟨d, tail, rfl, hhead⟩ := head_digitText rest hds
  cases negative with
  | true => exact ⟨rfl, rfl⟩
  | false =>
    have hne : ¬ (signText false ++ (digitText (d :: tail) ++ rest)).head? = some '-' := by
      intro h
      rw [signText, if_neg (by decide), List.nil_append, hhead] at h
      exact digitChar_ne_minus d (Option.some.inj h)
    rw [if_neg hne]
    exact ⟨decide_eq_false hne, rfl⟩

/-- A number written in parts reads back as the value of its parts. -/
lemma parseNumber_parts (negative : Bool) {whole : List (Fin 10)} (fraction : List (Fin 10))
    (e : Option ℤ) {rest : List Char} (hwhole : whole ≠ [])
    (hzero : whole.head? = some 0 → whole = [0]) (hrest : EndsNumber rest) :
    parseNumber (signText negative ++ (digitText whole ++ (fractionText fraction ++
      (exponentText e ++ rest)))) =
      some (Number.ofDigits negative (whole ++ fraction) (whole.length + e.getD 0), rest) := by
  obtain ⟨hsign, hbody⟩ := sign_read negative
    (fractionText fraction ++ (exponentText e ++ rest)) hwhole
  have hexp := exponentText_head (e := e) hrest
  obtain ⟨htake, hdrop⟩ := digitText_boundary whole (fractionText_head fraction hexp)
  have hlead : ¬ (digitText whole = [] ∨
      ((digitText whole).head? = some '0' ∧ digitText whole ≠ ['0'])) := by
    rintro (h | ⟨h, hne⟩)
    · exact hwhole (digitText_eq_nil.mp h)
    · cases whole with
      | nil => exact hwhole rfl
      | cons d tail =>
        have hd : d = 0 := digitChar_eq_zero (Option.some.inj h)
        rw [hzero (by rw [hd]; rfl)] at hne
        exact hne rfl
  unfold parseNumber
  simp only [hbody, htake, hdrop, hsign, if_neg hlead,
    fractionPart_fractionText fraction hexp, exponentPart_exponentText e hrest,
    Option.bind_eq_bind, Option.bind_some, Option.pure_def, List.map_append,
    map_digitOf_digitText, length_digitText]

lemma takeWhile_zeros (a : ℕ) {d : Fin 10} (hd : d ≠ 0) (tail : List (Fin 10)) :
    (List.replicate a 0 ++ d :: tail).takeWhile (· = 0) = List.replicate a 0 ∧
      (List.replicate a 0 ++ d :: tail).dropWhile (· = 0) = d :: tail := by
  apply takeWhile_boundary
  · intro x hx
    exact decide_eq_true (List.eq_of_mem_replicate hx)
  · intro x hx
    cases hx
    exact decide_eq_false hd

/-- Zeros around the digits of a decimal change nothing but where the point stands. -/
lemma ofDigits_pad (negative : Bool) (d : Decimal) (a b : ℕ) {digits : List (Fin 10)} {point : ℤ}
    (hdigits : digits = List.replicate a 0 ++ (d.digits ++ List.replicate b 0))
    (hpoint : point - a = d.point) :
    Number.ofDigits negative digits point = .finite negative d := by
  subst hdigits
  obtain ⟨digits, p, hne, hlead, htrail⟩ := d
  obtain ⟨x, tail, rfl⟩ := List.exists_cons_of_ne_nil hne
  rw [List.head_cons] at hlead
  obtain ⟨htake, hdrop⟩ := takeWhile_zeros a hlead (tail ++ List.replicate b 0)
  have hsig : significant (List.replicate a 0 ++ (x :: tail ++ List.replicate b 0)) = x :: tail := by
    unfold significant
    rw [List.cons_append, hdrop, ← List.cons_append, List.rdropWhile, List.reverse_append,
      List.reverse_replicate]
    have hlast : (x :: tail).reverse = ((x :: tail).getLast hne) :: (x :: tail).dropLast.reverse := by
      rw [← List.reverse_concat, List.dropLast_concat_getLast]
    rw [hlast, (takeWhile_zeros b htrail _).2, ← hlast, List.reverse_reverse]
  unfold Number.ofDigits
  rw [dif_neg (by rw [hsig]; exact hne)]
  simp only [hsig]
  congr 2
  rw [List.cons_append, htake, List.length_replicate]
  exact hpoint

lemma length_digits_pos (d : Decimal) : 0 < d.digits.length :=
  List.length_pos_of_ne_nil d.nonempty

lemma head_digits (d : Decimal) : d.digits.head? ≠ some 0 := by
  rw [List.head?_eq_some_head d.nonempty]
  exact fun h => d.leading (Option.some.inj h)

/-- The parts of a decimal are its digits, padded by zeros, with the point where it belongs. -/
lemma parts_value (negative : Bool) (d : Decimal) :
    d.parts.1 ≠ [] ∧ (d.parts.1.head? = some 0 → d.parts.1 = [0]) ∧
      Number.ofDigits negative (d.parts.1 ++ d.parts.2.1) (d.parts.1.length + d.parts.2.2.getD 0) =
        .finite negative d := by
  have hpos := length_digits_pos d
  have hhead := head_digits d
  unfold Decimal.parts
  simp only
  split_ifs with hlarge hmiddle hsmall
  · refine ⟨by simp [d.nonempty], fun h => ?_, ?_⟩
    · rw [List.head?_append_of_ne_nil _ d.nonempty] at h
      exact absurd h hhead
    · apply ofDigits_pad negative d 0 (d.point - d.digits.length).toNat
      · rw [List.append_nil, List.replicate_zero, List.nil_append]
      · rw [List.length_append, List.length_replicate, Option.getD_none]
        omega
  · have hlen : (d.digits.take d.point.toNat).length = d.point.toNat := by
      rw [List.length_take]
      omega
    have hne : d.digits.take d.point.toNat ≠ [] := List.ne_nil_of_length_pos (by omega)
    refine ⟨hne, fun h => ?_, ?_⟩
    · rw [List.head?_take, if_neg (by omega)] at h
      exact absurd h hhead
    · apply ofDigits_pad negative d 0 0
      · rw [List.take_append_drop, List.replicate_zero, List.nil_append, List.append_nil]
      · rw [hlen, Option.getD_none]
        omega
  · refine ⟨by simp, fun _ => rfl, ?_⟩
    apply ofDigits_pad negative d ((-d.point).toNat + 1) 0
    · rw [List.replicate_succ, List.replicate_zero, List.append_nil]
      rfl
    · rw [List.length_singleton, Option.getD_none]
      omega
  · have hlen : (d.digits.take 1).length = 1 := by
      rw [List.length_take]
      omega
    have hne : d.digits.take 1 ≠ [] := List.ne_nil_of_length_pos (by omega)
    refine ⟨hne, fun h => ?_, ?_⟩
    · rw [List.head?_take, if_neg (by omega)] at h
      exact absurd h hhead
    · apply ofDigits_pad negative d 0 0
      · rw [List.take_append_drop, List.replicate_zero, List.nil_append, List.append_nil]
      · rw [hlen, Option.getD_some]
        omega

lemma parseNumber_zero {rest : List Char} (hrest : EndsNumber rest) :
    parseNumber ('0' :: rest) = some (.zero, rest) := by
  have hne : [(0 : Fin 10)] ≠ [] := List.cons_ne_nil _ _
  exact parseNumber_parts false [] none hne (fun _ => rfl) hrest

/-- The text of a finite number reads back as the number. -/
lemma parseNumber_text {n : Number} (hn : n.IsFinite) {rest : List Char} (hrest : EndsNumber rest) :
    parseNumber (n.text ++ rest) = some (n, rest) := by
  cases n with
  | nan => exact hn.elim
  | infinity negative => exact hn.elim
  | zero => exact parseNumber_zero hrest
  | finite negative d =>
    obtain ⟨hne, hzero, hvalue⟩ := parts_value negative d
    have hh := parseNumber_parts negative d.parts.2.1 d.parts.2.2 hne hzero hrest
    rw [hvalue] at hh
    simpa only [Number.text, Decimal.text, List.append_assoc] using hh

end RoundTrip

section Integers

def digitsValue (ds : List (Fin 10)) : ℕ := ds.foldl (fun n d => 10 * n + d.val) 0

def naturalDigits (n : ℕ) : List (Fin 10) := (Nat.toDigits 10 n).map digitOf

def Number.ofInt (n : ℤ) : Number :=
  Number.ofDigits (n < 0) (naturalDigits n.natAbs) (naturalDigits n.natAbs).length

/-- The integer that a number is, if it is one. -/
def Number.toInt? : Number → Option ℤ
  | .nan => none
  | .infinity _ => none
  | .zero => some 0
  | .finite negative d =>
    if d.digits.length ≤ d.point then
      let magnitude : ℤ := digitsValue d.digits * 10 ^ (d.point - d.digits.length).toNat
      some (if negative then -magnitude else magnitude)
    else none

lemma digitsValue_append (ds es : List (Fin 10)) :
    digitsValue (ds ++ es) = digitsValue ds * 10 ^ es.length + digitsValue es := by
  induction es using List.reverseRecOn with
  | nil => simp [digitsValue]
  | append_singleton es e ih =>
    have hsnoc : ∀ fs : List (Fin 10), digitsValue (fs ++ [e]) = 10 * digitsValue fs + e.val := by
      intro fs
      simp [digitsValue]
    rw [← List.append_assoc, hsnoc, hsnoc, ih, List.length_append, List.length_singleton, pow_succ]
    ring

lemma digitsValue_zeros (n : ℕ) : digitsValue (List.replicate n 0) = 0 := by
  induction n with
  | zero => rfl
  | succ n ih => rw [List.replicate_succ', digitsValue_append, ih]; rfl

lemma digitsValue_naturalDigits (n : ℕ) : digitsValue (naturalDigits n) = n := by
  have hchars : ∀ cs : List Char, (∀ c ∈ cs, c.isDigit = true) → ∀ m,
      (cs.map digitOf).foldl (fun n d => 10 * n + d.val) m = Nat.ofDigitChars 10 cs m := by
    intro cs
    induction cs with
    | nil => intro _ m; rfl
    | cons c cs ih =>
      intro h m
      obtain ⟨hc, hcs⟩ := List.forall_mem_cons.mp h
      have hdigit : (digitOf c).val = c.toNat - 48 := by
        unfold Char.isDigit at hc
        simp only [Bool.and_eq_true, decide_eq_true_eq, UInt32.le_iff_toNat_le] at hc
        have hle : c.toNat ≤ 57 := hc.2
        exact Nat.mod_eq_of_lt (by omega)
      rw [List.map_cons, List.foldl_cons, ih hcs, hdigit]
      rfl
  unfold digitsValue naturalDigits
  rw [hchars _ (fun c hc => Nat.isDigit_of_mem_toDigits (by omega) (by omega) hc)]
  exact Nat.ofDigitChars_ten_toDigits

lemma zeros_around (ds : List (Fin 10)) :
    ∃ b, ds = ds.takeWhile (· = 0) ++ (significant ds ++ List.replicate b 0) := by
  have hzeros : ∀ xs : List (Fin 10), ∃ b, xs = xs.rdropWhile (· = 0) ++ List.replicate b 0 := by
    intro xs
    refine ⟨(xs.rtakeWhile (· = 0)).length, ?_⟩
    have hall : xs.rtakeWhile (· = 0) = List.replicate (xs.rtakeWhile (· = 0)).length 0 := by
      apply List.eq_replicate_of_mem
      intro x hx
      simpa using List.mem_rtakeWhile_imp hx
    rw [← hall]
    exact (List.rdropWhile_append_rtakeWhile ..).symm
  obtain ⟨b, hb⟩ := hzeros (ds.dropWhile (· = 0))
  refine ⟨b, ?_⟩
  rw [significant, ← hb]
  exact (List.takeWhile_append_dropWhile ..).symm

lemma toInt?_ofDigits (negative : Bool) (ds : List (Fin 10)) :
    (Number.ofDigits negative ds ds.length).toInt? =
      some (if negative then -(digitsValue ds : ℤ) else digitsValue ds) := by
  obtain ⟨b, hb⟩ := zeros_around ds
  have hlead : digitsValue (ds.takeWhile (· = 0)) = 0 := by
    have hall : ds.takeWhile (· = 0) = List.replicate (ds.takeWhile (· = 0)).length 0 := by
      apply List.eq_replicate_of_mem
      intro x hx
      simpa using List.mem_takeWhile_imp hx
    rw [hall]
    exact digitsValue_zeros _
  have hvalue : digitsValue ds = digitsValue (significant ds) * 10 ^ b := by
    conv_lhs => rw [hb]
    rw [digitsValue_append, digitsValue_append, hlead, digitsValue_zeros, List.length_replicate]
    ring
  have hlen : ds.length = (ds.takeWhile (· = 0)).length + (significant ds).length + b := by
    conv_lhs => rw [hb]
    rw [List.length_append, List.length_append, List.length_replicate]
    ring
  unfold Number.ofDigits
  by_cases h : significant ds = []
  · have hnil : digitsValue ([] : List (Fin 10)) = 0 := rfl
    rw [dif_pos h, hvalue, h, hnil, zero_mul]
    cases negative <;> rfl
  · rw [dif_neg h]
    unfold Number.toInt?
    have hle : ((significant ds).length : ℤ) ≤ ds.length - (ds.takeWhile (· = 0)).length := by omega
    have hpow : ((ds.length : ℤ) - (ds.takeWhile (· = 0)).length - (significant ds).length).toNat = b := by
      omega
    simp only [if_pos hle, hpow, hvalue]
    push_cast
    rfl

lemma toInt?_ofInt (n : ℤ) : (Number.ofInt n).toInt? = some n := by
  unfold Number.ofInt
  rw [toInt?_ofDigits, digitsValue_naturalDigits]
  by_cases hn : n < 0
  · rw [if_pos (decide_eq_true hn)]
    congr 1
    omega
  · rw [if_neg (by simpa using hn)]
    congr 1
    omega

lemma isFinite_ofInt (n : ℤ) : (Number.ofInt n).IsFinite := by
  unfold Number.ofInt Number.ofDigits
  split_ifs <;> trivial

end Integers

end VivimOmega.Library.Json

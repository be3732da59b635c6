import VivimOmega.Library.Json.Number
import VivimOmega.Library.Json.Stringify

/-! Numbers in a template: their texts differ, and no separator occurs in them. -/

namespace VivimOmega.Library.Json

/-- A number between the texts of a template. -/
def numberUnits (n : Number) : JsString := ofText (jsString (.number n))

section Units

lemma toNat_of_mem_units {u : UInt16} {c : Char} (hu : u.toNat < 0xD800) (h : u ∈ units c) : c.toNat = u.toNat := by
  unfold units at h
  split_ifs at h with hc
  · have hcode := congrArg UInt16.toNat (List.mem_singleton.mp h)
    rw [UInt16.toNat_ofNat', Nat.mod_eq_of_lt (by omega)] at hcode
    exact hcode.symm
  · have hvalid : c.toNat < 0xD800 ∨ (0xDFFF < c.toNat ∧ c.toNat < 0x110000) := c.valid
    obtain hcode | hcode := List.mem_pair.mp h
    · have hcode := congrArg UInt16.toNat hcode
      rw [UInt16.toNat_ofNat', Nat.mod_eq_of_lt (by omega)] at hcode
      omega
    · have hcode := congrArg UInt16.toNat hcode
      rw [UInt16.toNat_ofNat', Nat.mod_eq_of_lt (by omega)] at hcode
      omega

/-- A character is in a text if its unit is. -/
lemma mem_of_unit_mem {c : Char} {u : UInt16} {text : String} (hu : u.toNat < 0xD800) (hc : c.toNat = u.toNat)
    (h : u ∈ ofText text) : c ∈ text.toList := by
  obtain ⟨d, hd, hunit⟩ := List.mem_flatMap.mp h
  have hcode := toNat_of_mem_units hu hunit
  rwa [Char.toNat_inj.mp (hc.trans hcode.symm)]

end Units

section Texts

variable {n : Number} {c : Char}

lemma digitText_other (hc : c.isDigit = false) (ds : List (Fin 10)) : c ∉ digitText ds := by
  intro h
  obtain ⟨d, _, rfl⟩ := List.mem_map.mp h
  rw [isDigit_digitChar] at hc
  cases hc

/-- Digits, a sign, a point and an exponent are all that a finite number is written with. -/
lemma text_other (hn : n.IsFinite) (hdigit : c.isDigit = false) (hmark : c ∉ ['-', '.', 'e', '+']) : c ∉ n.text := by
  simp only [List.mem_cons, List.not_mem_nil, or_false, not_or] at hmark
  obtain ⟨hminus, hpoint, he, hplus⟩ := hmark
  cases n with
  | nan => exact hn.elim
  | infinity negative => exact hn.elim
  | zero =>
    intro h
    rw [List.mem_singleton.mp h] at hdigit
    cases hdigit
  | finite negative d =>
    have hsign : c ∉ signText negative := by cases negative <;> simp [signText, hminus]
    have hfraction : c ∉ fractionText d.parts.2.1 := by
      unfold fractionText
      split_ifs
      · exact List.not_mem_nil
      · simp [hpoint, digitText_other hdigit]
    have hexponent : c ∉ exponentText d.parts.2.2 := by
      cases d.parts.2.2 with
      | none => exact List.not_mem_nil
      | some e =>
        simp only [exponentText, List.mem_cons, not_or]
        refine ⟨he, by split_ifs <;> assumption, fun h => ?_⟩
        rw [Nat.isDigit_of_mem_toDigits (by decide) (by decide) h] at hdigit
        cases hdigit
    simp only [Number.text, Decimal.text, List.mem_append, not_or]
    exact ⟨hsign, ⟨digitText_other hdigit _, hfraction⟩, hexponent⟩

lemma jsString_finite (hn : n.IsFinite) : jsString (.number n) = String.ofList n.text := by
  cases n with
  | nan => exact hn.elim
  | infinity negative => exact hn.elim
  | zero => rfl
  | finite negative d => rfl

lemma text_injective {m n : Number} (hm : m.IsFinite) (hn : n.IsFinite) (h : m.text = n.text) : m = n := by
  have hends : EndsNumber [] := nofun
  have hread := parseNumber_text hm hends
  rw [h, parseNumber_text hn hends] at hread
  exact (congrArg Prod.fst (Option.some.inj hread)).symm

/-- A letter of the names of the numbers that are not finite. -/
lemma name_not_text (hn : n.IsFinite) {name : String} (hname : 'N' ∈ name.toList ∨ 'I' ∈ name.toList) :
    name ≠ String.ofList n.text := by
  rintro rfl
  rw [String.toList_ofList] at hname
  obtain h | h := hname
  · exact text_other hn (by decide) (by decide) h
  · exact text_other hn (by decide) (by decide) h

lemma jsString_number_injective : Function.Injective fun n : Number => jsString (.number n) := by
  have hcases : ∀ n : Number, n.IsFinite ∨ n = .nan ∨ n = .infinity false ∨ n = .infinity true := by
    rintro (_ | negative | _ | ⟨negative, d⟩)
    · exact Or.inr (Or.inl rfl)
    · cases negative <;> simp
    · exact Or.inl trivial
    · exact Or.inl trivial
  intro m n h
  dsimp only at h
  obtain hm | rfl | rfl | rfl := hcases m <;> obtain hn | rfl | rfl | rfl := hcases n
  · rw [jsString_finite hm, jsString_finite hn] at h
    exact text_injective hm hn (String.ofList_injective h)
  all_goals first
    | rfl
    | exact absurd (h.symm.trans (jsString_finite hm)) (name_not_text hm (by decide))
    | exact absurd (h.trans (jsString_finite hn)) (name_not_text hn (by decide))
    | exact absurd h (by decide)

lemma numberUnits_injective : Function.Injective numberUnits :=
  ofText_injective.comp jsString_number_injective

/-- A unit that no number is written with. -/
lemma numberUnits_other {u : UInt16} {c : Char} (hu : u.toNat < 0xD800) (hc : c.toNat = u.toNat)
    (hdigit : c.isDigit = false) (hmark : c ∉ ['-', '.', 'e', '+'] ++ "NaN".toList ++ "Infinity".toList) (n : Number) :
    u ∉ numberUnits n := by
  intro h
  have hchar := mem_of_unit_mem hu hc h
  simp only [List.mem_append, not_or] at hmark
  obtain ⟨⟨hmark, hnan⟩, hinfinity⟩ := hmark
  cases n with
  | nan => exact hnan hchar
  | infinity negative =>
    cases negative with
    | false => exact hinfinity hchar
    | true =>
      obtain hminus | hrest := List.mem_cons.mp (show c ∈ '-' :: "Infinity".toList from hchar)
      · exact hmark (hminus ▸ List.mem_cons_self)
      · exact hinfinity hrest
  | zero =>
    have hfinite : Number.IsFinite .zero := trivial
    rw [jsString_finite hfinite, String.toList_ofList] at hchar
    exact text_other hfinite hdigit hmark hchar
  | finite negative d =>
    have hfinite : Number.IsFinite (.finite negative d) := trivial
    rw [jsString_finite hfinite, String.toList_ofList] at hchar
    exact text_other hfinite hdigit hmark hchar

end Texts

end VivimOmega.Library.Json

import VivimOmega.Library.Json.Pretty

/-! What `JSON.parse` accepts is plain: every number is finite and no object has a key twice. -/

namespace VivimOmega.Library.Json

open Value

section Parsed

variable {members : List (JsString × Value)} {v : Value}

lemma isFinite_ofDigits (negative : Bool) (digits : List (Fin 10)) (point : ℤ) :
    (Number.ofDigits negative digits point).IsFinite := by
  unfold Number.ofDigits
  split_ifs <;> trivial

lemma parseNumber_finite {cs rest : List Char} {n : Number} (h : parseNumber cs = some (n, rest)) : n.IsFinite := by
  unfold parseNumber at h
  dsimp only at h
  split_ifs at h
  all_goals
    obtain ⟨fraction, _, h⟩ := Option.bind_eq_some_iff.mp h
    obtain ⟨exponent, _, h⟩ := Option.bind_eq_some_iff.mp h
    cases h
    exact isFinite_ofDigits _ _ _

lemma keys_assign (members : List (JsString × Value)) (k : JsString) (v : Value) :
    (assign members k v).map Prod.fst =
      if k ∈ members.map Prod.fst then members.map Prod.fst else members.map Prod.fst ++ [k] := by
  unfold assign
  split_ifs with hk
  · rw [List.map_map]
    apply List.map_congr_left
    intro m _
    by_cases hm : m.1 = k <;> simp [hm]
  · rw [List.map_append]
    rfl

lemma nodup_assign (hkeys : (members.map Prod.fst).Nodup) (k : JsString) (v : Value) :
    ((assign members k v).map Prod.fst).Nodup := by
  rw [keys_assign]
  split_ifs with hk
  · exact hkeys
  · refine List.Nodup.append hkeys (List.nodup_singleton k) ?_
    simpa using hk

lemma mem_assign {k : JsString} {m : JsString × Value} (h : m ∈ assign members k v) : m ∈ members ∨ m = (k, v) := by
  unfold assign at h
  split_ifs at h
  · obtain ⟨n, hn, rfl⟩ := List.mem_map.mp h
    by_cases hk : n.1 = k
    · exact .inr (if_pos hk)
    · rw [if_neg hk]
      exact .inl hn
  · simpa using h

/-- The members of a plain object. -/
def PlainMembers (members : List (JsString × Value)) : Prop :=
  (members.map Prod.fst).Nodup ∧ ∀ m ∈ members, Plain m.2

lemma PlainMembers.assign (h : PlainMembers members) (hv : Plain v) (k : JsString) : PlainMembers (assign members k v) := by
  refine ⟨nodup_assign h.1 k v, fun m hm => ?_⟩
  obtain hm | rfl := mem_assign hm
  · exact h.2 m hm
  · exact hv

lemma literal?_plain {word cs rest : List Char} {w : Value} (hw : Plain w) (h : literal? word w cs = some (v, rest)) :
    Plain v := by
  unfold literal? at h
  split_ifs at h
  cases h
  exact hw

/-- By the fuel, for the three parsers together. -/
lemma parsers_plain (fuel : ℕ) :
    (∀ cs v rest, parseValue fuel cs = some (v, rest) → Plain v) ∧
      (∀ cs items rest, parseItems fuel cs = some (items, rest) → ∀ v ∈ items, Plain v) ∧
        ∀ seen cs members rest, PlainMembers seen → parseMembers fuel seen cs = some (members, rest) →
          PlainMembers members := by
  induction fuel with
  | zero =>
    refine ⟨?_, ?_, ?_⟩
    · intro cs v rest h
      rw [parseValue] at h
      cases h
    · intro cs items rest h
      rw [parseItems] at h
      cases h
    · intro seen cs members rest _ h
      rw [parseMembers] at h
      cases h
  | succ fuel ih =>
    obtain ⟨hvalue, hitems, hmembers⟩ := ih
    refine ⟨?_, ?_, ?_⟩
    · intro cs v rest h
      rw [parseValue] at h
      split at h
      · cases h
      · next c tail _ =>
        split_ifs at h
        · exact literal?_plain .null h
        · exact literal?_plain (.bool _) h
        · exact literal?_plain (.bool _) h
        · obtain ⟨r, _, hr⟩ := Option.map_eq_some_iff.mp h
          cases hr
          exact .string _
        · cases h
          exact .array (by simp)
        · obtain ⟨r, hr, heq⟩ := Option.map_eq_some_iff.mp h
          cases heq
          exact .array (hitems _ _ _ hr)
        · cases h
          exact .object List.nodup_nil (by simp)
        · obtain ⟨r, hr, heq⟩ := Option.map_eq_some_iff.mp h
          cases heq
          obtain ⟨hkeys, hall⟩ := hmembers [] _ _ _ ⟨List.nodup_nil, by simp⟩ hr
          exact .object hkeys hall
        · obtain ⟨r, hr, heq⟩ := Option.map_eq_some_iff.mp h
          cases heq
          exact .number (parseNumber_finite hr)
    · intro cs items rest h
      rw [parseItems] at h
      obtain ⟨⟨v, after⟩, hv, h⟩ := Option.bind_eq_some_iff.mp h
      dsimp only at h
      split at h
      · obtain ⟨⟨others, left⟩, hothers, h⟩ := Option.bind_eq_some_iff.mp h
        cases h
        exact List.forall_mem_cons.mpr ⟨hvalue _ _ _ hv, hitems _ _ _ hothers⟩
      · cases h
        exact List.forall_mem_singleton.mpr (hvalue _ _ _ hv)
      · cases h
    · intro seen cs members rest hseen h
      rw [parseMembers] at h
      split at h
      · obtain ⟨⟨k, afterKey⟩, _, h⟩ := Option.bind_eq_some_iff.mp h
        dsimp only at h
        split at h
        · obtain ⟨⟨v, after⟩, hv, h⟩ := Option.bind_eq_some_iff.mp h
          dsimp only at h
          have hassigned := hseen.assign (hvalue _ _ _ hv) k
          split at h
          · exact hmembers _ _ _ _ hassigned h
          · cases h
            exact hassigned
          · cases h
        · cases h
      · cases h

lemma parse_plain {text : List Char} (h : parse text = some v) : Plain v := by
  unfold parse at h
  split at h
  · next w rest hread =>
    split_ifs at h
    cases h
    exact (parsers_plain _).1 _ _ _ hread
  · cases h

end Parsed

section Serialized

lemma serializedItems_plain {items : List Value} (h : ∀ v ∈ items, serialized v = .ok v) :
    serializedItems items = .ok items := by
  induction items with
  | nil => rfl
  | cons v rest ih =>
    obtain ⟨hv, hrest⟩ := List.forall_mem_cons.mp h
    rw [serializedItems, hv, ok_bind, ih hrest]
    rfl

lemma serializedMembers_plain {members : List (JsString × Value)} (hplain : ∀ m ∈ members, Plain m.2)
    (h : ∀ m ∈ members, serialized m.2 = .ok m.2) : serializedMembers members = .ok members := by
  induction members with
  | nil => rfl
  | cons m rest ih =>
    obtain ⟨k, v⟩ := m
    obtain ⟨hv, hrest⟩ := List.forall_mem_cons.mp h
    obtain ⟨hpv, hprest⟩ := List.forall_mem_cons.mp hplain
    have hdefined : ¬ v.isUndefined = true := by cases hpv <;> simp [isUndefined]
    rw [serializedMembers, if_neg hdefined, hv, ok_bind, ih hprest hrest]
    rfl

/-- A plain value is written as it is. -/
lemma Value.Plain.serialized {v : Value} (h : Plain v) : serialized v = .ok v := by
  induction h with
  | null => rfl
  | bool b => rfl
  | number hn =>
    rw [Json.serialized, if_pos hn]
    rfl
  | string s => rfl
  | array _ ih =>
    rw [Json.serialized, serializedItems_plain ih]
    rfl
  | object _ hplain ih =>
    rw [Json.serialized, serializedMembers_plain hplain ih]
    rfl

lemma Value.Plain.stringifyPretty {v : Value} (h : Plain v) :
    stringifyPretty v = .ok (String.ofList (prettyText 0 v)) := by
  rw [Json.stringifyPretty, h.serialized]
  rfl

/-- The text of a plain value says which it is. -/
lemma prettyText_injective {v w : Value} (hv : Plain v) (hw : Plain w) (h : prettyText 0 v = prettyText 0 w) : v = w := by
  have hread := parse_prettyText hv
  rw [h, parse_prettyText hw] at hread
  exact (Option.some.inj hread).symm

end Serialized

end VivimOmega.Library.Json

import VivimOmega.Nlcl.Grammar

/-! Where a mention begins and how far it runs. -/

namespace VivimOmega.Nlcl

open Library Library.Json

section Runs

/-- What ends a mention behind its first token. -/
def isCut (t : Token) : Bool :=
  t.kind = .punct || t.kind = .symbol || t.kind = .arrow || t.kind = .quote || (t.kind = .word && isModifierWord t.norm)

def isStop (t : Token) : Bool := t.kind = .word && t.norm ∈ STOPWORDS

/-- The tokens from one on, to the next that cuts them off. -/
def run (tokens : List Token) (start : Token) : List Token :=
  start :: (tokens.drop (start.i + 1)).takeWhile fun t => !isCut t

def speech (tokens : List Token) (start : Token) : List Token := (run tokens start).filter fun t => !isStop t

/-- Every token stands where its number says. -/
def Numbered (tokens : List Token) : Prop := ∀ (k : ℕ) (t : Token), tokens[k]? = some t → t.i = k

lemma numbered_lex (U : Unicode) (input : JsString) : Numbered (lex U input).tokens := by
  intro k t ht
  change (numbered _)[k]? = some t at ht
  rw [numbered, List.getElem?_mapIdx] at ht
  obtain ⟨u, -, rfl⟩ := Option.map_eq_some_iff.mp ht
  rfl

variable {tokens : List Token} {start t u : Token} {k n : ℕ}

lemma Numbered.get (h : Numbered tokens) (ht : t ∈ tokens) : tokens[t.i]? = some t := by
  obtain ⟨k, hk⟩ := List.mem_iff_getElem?.mp ht
  rw [h k t hk, hk]

lemma Numbered.inj (h : Numbered tokens) (ht : t ∈ tokens) (hu : u ∈ tokens) (hsame : t.i = u.i) : t = u := by
  have heq := h.get hu
  rw [← hsame, h.get ht] at heq
  exact Option.some.inj heq

lemma Numbered.sorted (h : Numbered tokens) : tokens.Pairwise fun t u => t.i < u.i := by
  rw [List.pairwise_iff_getElem]
  intro i j hi hj hij
  rw [h i _ (List.getElem?_eq_getElem hi), h j _ (List.getElem?_eq_getElem hj)]
  exact hij

lemma Numbered.mem_drop (h : Numbered tokens) : t ∈ tokens.drop n ↔ t ∈ tokens ∧ n ≤ t.i := by
  rw [List.mem_drop_iff_getElem]
  constructor
  · rintro ⟨i, hi, rfl⟩
    rw [h _ _ (List.getElem?_eq_getElem _)]
    exact ⟨List.getElem_mem _, by omega⟩
  · rintro ⟨ht, hn⟩
    obtain ⟨hlt, hget⟩ := List.getElem?_eq_some_iff.mp (h.get ht)
    refine ⟨t.i - n, by omega, ?_⟩
    simpa only [Nat.add_sub_cancel' hn] using hget

lemma mem_takeWhile_sorted {l : List Token} {p : Token → Bool} (h : l.Pairwise fun t u => t.i < u.i) :
    t ∈ l.takeWhile p ↔ t ∈ l ∧ ∀ u ∈ l, u.i ≤ t.i → p u = true := by
  induction l with
  | nil => simp
  | cons first rest ih =>
    obtain ⟨hfirst, hrest⟩ := List.pairwise_cons.mp h
    rw [List.takeWhile_cons]
    by_cases hp : p first = true
    · rw [if_pos hp, List.mem_cons, ih hrest, List.mem_cons]
      constructor
      · rintro (rfl | ⟨ht, hall⟩)
        · refine ⟨.inl rfl, fun u hu hle => ?_⟩
          obtain rfl | hu := List.mem_cons.mp hu
          · exact hp
          · exact absurd hle (Nat.not_le_of_lt (hfirst u hu))
        · refine ⟨.inr ht, fun u hu hle => ?_⟩
          obtain rfl | hu := List.mem_cons.mp hu
          · exact hp
          · exact hall u hu hle
      · rintro ⟨rfl | ht, hall⟩
        · exact .inl rfl
        · exact .inr ⟨ht, fun u hu => hall u (List.mem_cons_of_mem _ hu)⟩
    · rw [if_neg hp]
      refine iff_of_false List.not_mem_nil fun ⟨ht, hall⟩ => hp (hall first List.mem_cons_self ?_)
      obtain rfl | ht := List.mem_cons.mp ht
      · exact le_rfl
      · exact (hfirst t ht).le

/-- A run goes on for as long as nothing cuts it off. -/
lemma mem_run (h : Numbered tokens) (hstart : start ∈ tokens) : t ∈ run tokens start ↔
    t ∈ tokens ∧ start.i ≤ t.i ∧ ∀ u ∈ tokens, start.i < u.i → u.i ≤ t.i → isCut u = false := by
  have hsorted : (tokens.drop (start.i + 1)).Pairwise fun t u => t.i < u.i := h.sorted.sublist (List.drop_sublist _ _)
  rw [run, List.mem_cons, mem_takeWhile_sorted hsorted, h.mem_drop]
  constructor
  · rintro (rfl | ⟨⟨ht, hlt⟩, hall⟩)
    · exact ⟨hstart, le_rfl, fun u _ hlt hle => absurd hlt (Nat.not_lt_of_le hle)⟩
    · refine ⟨ht, by omega, fun u hu hlt' hle => ?_⟩
      exact (Bool.not_eq_true' _).mp (hall u (h.mem_drop.mpr ⟨hu, hlt'⟩) hle)
  · rintro ⟨ht, hle, hall⟩
    obtain heq | hlt := Nat.eq_or_lt_of_le hle
    · exact .inl (h.inj ht hstart heq.symm)
    · refine .inr ⟨⟨ht, hlt⟩, fun u hu hle' => ?_⟩
      obtain ⟨hu, hlt'⟩ := h.mem_drop.mp hu
      exact (Bool.not_eq_true' _).mpr (hall u hu hlt' hle')

/-- Two runs that meet are one and the same from the later start on. -/
lemma run_meets (h : Numbered tokens) (hstart : start ∈ tokens) (hu : u ∈ tokens) (hle : start.i ≤ u.i)
    (ht : t ∈ run tokens start) (hbehind : u.i ≤ t.i) : u ∈ run tokens start := by
  obtain ⟨-, -, hall⟩ := (mem_run h hstart).mp ht
  exact (mem_run h hstart).mpr ⟨hu, hle, fun v hv hlt hvu => hall v hv hlt (hvu.trans hbehind)⟩

end Runs

section Collecting

variable {tokens : List Token} {start t : Token} {verbTok : ℕ}

lemma collect_cut (parts : List JsString) (quote : Option JsString) (consumed mentioned : List ℕ) (rest : List Token)
    (hparts : parts ≠ []) (hcut : isCut t = true) :
    collect parts quote consumed mentioned (t :: rest) = ⟨joined parts, quote, consumed, mentioned⟩ := by
  unfold collect
  unfold isCut at hcut
  cases hkind : t.kind <;> simp_all [isPrepToken, listAsSlot]

lemma collect_next (parts : List JsString) (quote : Option JsString) (consumed mentioned : List ℕ) (rest : List Token)
    (hcut : isCut t = false) : collect parts quote consumed mentioned (t :: rest) =
      if isStop t then collect parts quote (consumed ++ [t.i]) mentioned rest
      else collect (parts ++ [t.norm]) quote (consumed ++ [t.i]) (mentioned ++ [t.i]) rest := by
  rw [collect]
  unfold isCut at hcut
  unfold isStop
  cases hkind : t.kind <;> simp_all [isPrepToken, listAsSlot]

/-- With a word collected, the mention goes on to the next cut, and leaves out the stopwords. -/
lemma collect_started (parts : List JsString) (quote : Option JsString) (consumed mentioned : List ℕ) (l : List Token)
    (hparts : parts ≠ []) : ∃ text, collect parts quote consumed mentioned l =
      ⟨text, quote, consumed ++ (l.takeWhile fun t => !isCut t).map Token.i,
        mentioned ++ ((l.takeWhile fun t => !isCut t).filter fun t => !isStop t).map Token.i⟩ := by
  induction l generalizing parts consumed mentioned with
  | nil => exact ⟨joined parts, by simp [collect]⟩
  | cons t rest ih =>
    cases hcut : isCut t with
    | true => exact ⟨joined parts, by simp [collect_cut parts quote consumed mentioned rest hparts hcut, hcut]⟩
    | false =>
      rw [collect_next parts quote consumed mentioned rest hcut]
      cases hstop : isStop t with
      | true =>
        obtain ⟨text, htext⟩ := ih parts (consumed ++ [t.i]) mentioned hparts
        exact ⟨text, by simp [htext, hcut, hstop]⟩
      | false =>
        obtain ⟨text, htext⟩ := ih (parts ++ [t.norm]) (consumed ++ [t.i]) (mentioned ++ [t.i]) (by simp)
        exact ⟨text, by simp [htext, hcut, hstop]⟩

lemma semantic_free (h : isSemantic t = true) : t.kind ≠ .punct ∧ t.kind ≠ .symbol ∧ t.norm ∉ STOPWORDS ∧
    ¬ (t.kind = .word ∧ isModifierWord t.norm = true) := by
  unfold isSemantic at h
  simp only [Bool.and_eq_true, Bool.not_eq_true', decide_eq_true_eq, Bool.and_eq_false_iff, decide_eq_false_iff_not] at h
  obtain ⟨⟨⟨hpunct, hsymbol⟩, hstop⟩, hmodifier⟩ := h
  refine ⟨hpunct, hsymbol, hstop, fun hword => ?_⟩
  obtain hother | hplain := hmodifier
  · exact hother hword.1
  · exact Bool.false_ne_true (hplain.symm.trans hword.2)

lemma stop_semantic (h : isSemantic t = true) : isStop t = false := by
  obtain ⟨-, -, hstop, -⟩ := semantic_free h
  simp [isStop, hstop]

lemma mentionAfter_arrow (h : Numbered tokens) (hstart : start ∈ tokens) (harrow : start.kind = .arrow) :
    mentionAfter tokens start.i = ⟨[], none, [], []⟩ := by
  obtain ⟨hlt, hget⟩ := List.getElem?_eq_some_iff.mp (h.get hstart)
  rw [mentionAfter, List.drop_eq_getElem_cons hlt, hget]
  unfold collect
  simp [harrow]
  rfl

/-- A mention is made of the words of its run, and a quotation that it begins with is all that it quotes. -/
lemma mentionAfter_spec (h : Numbered tokens) (hstart : start ∈ tokens) (hsemantic : isSemantic start = true)
    (harrow : start.kind ≠ .arrow) : ∃ text, mentionAfter tokens start.i =
      ⟨text, if start.kind = .quote then some (start.quote.getD []) else none, (run tokens start).map Token.i,
        (speech tokens start).map Token.i⟩ := by
  obtain ⟨hlt, hget⟩ := List.getElem?_eq_some_iff.mp (h.get hstart)
  obtain ⟨hpunct, hsymbol, hstop, hmodifier⟩ := semantic_free hsemantic
  have hfirst : mentionAfter tokens start.i =
      if start.kind = .quote then
        collect [start.quote.getD []] (some (start.quote.getD [])) [start.i] [start.i] (tokens.drop (start.i + 1))
      else collect [start.norm] none [start.i] [start.i] (tokens.drop (start.i + 1)) := by
    rw [mentionAfter, List.drop_eq_getElem_cons hlt, hget, collect]
    cases hkind : start.kind <;> simp_all [isPrepToken, listAsSlot]
  have hspeech : speech tokens start =
      start :: ((tokens.drop (start.i + 1)).takeWhile fun t => !isCut t).filter fun t => !isStop t := by
    rw [speech, run, List.filter_cons_of_pos]
    rw [stop_semantic hsemantic]
    rfl
  rw [hfirst, run, hspeech]
  split_ifs with hquote
  · exact collect_started _ _ _ _ _ (List.cons_ne_nil _ _)
  · exact collect_started _ _ _ _ _ (List.cons_ne_nil _ _)

end Collecting

end VivimOmega.Nlcl

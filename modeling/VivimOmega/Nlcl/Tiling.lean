import VivimOmega.Library.Tiling
import VivimOmega.Nlcl.Lexer

/-! The tokens of an input tile it: between them there is white space only. -/

namespace VivimOmega.Nlcl

open Library Library.Json

/-- Tokens that tile a part of the input, which begins at a position. -/
abbrev TokenTiles : ℕ → JsString → List Token → Prop := Tiles isSkipped Token.text Token.start Token.stop

section Steps

variable {norm s rest : JsString} {kind : TokKind} {family : Option Family} {quote : Option JsString} {pos : ℕ}

lemma tiles_draft (h : s ≠ []) : TokenTiles pos s [draft s norm kind family quote pos] :=
  Tiles.single (t := draft s norm kind family quote pos) h rfl rfl

lemma tiles_puncts (s : JsString) (pos : ℕ) : TokenTiles pos s (puncts pos s) := by
  induction s generalizing pos with
  | nil => exact .nil
  | cons u rest ih => exact Tiles.append (tiles_draft (List.cons_ne_nil u [])) (ih (pos + 1))

/-- What a step takes is the text that its tokens tile. -/
structure Takes (pos : ℕ) (s : JsString) (step : List Token × ℕ) : Prop where
  some : 0 < step.2
  le : step.2 ≤ s.length
  tiles : TokenTiles pos (s.take step.2) step.1

lemma takes_of_prefix {text : JsString} {tokens : List Token} {n : ℕ} (hne : text ≠ []) (hpre : text <+: s)
    (hn : n = text.length) (htiles : TokenTiles pos text tokens) : Takes pos s (tokens, n) := by
  subst hn
  refine ⟨List.length_pos_iff.mpr hne, hpre.length_le, ?_⟩
  change TokenTiles pos (s.take text.length) tokens
  rwa [← List.prefix_iff_eq_take.mp hpre]

lemma takes_draft {n : ℕ} (hne : s ≠ []) (hpre : s <+: rest) (hn : n = s.length) :
    Takes pos rest ([draft s norm kind family quote pos], n) :=
  takes_of_prefix hne hpre hn (tiles_draft hne)

/-- The quoted text and the mark that closes it, where there is one. -/
lemma quoted_starts (close : UInt16) (rest : JsString) :
    rest.takeWhile (· ≠ close) ++ (rest.drop (rest.takeWhile (· ≠ close)).length).take 1 <+: rest := by
  have hinner := List.prefix_iff_eq_take.mp (List.takeWhile_prefix (l := rest) (· ≠ close))
  nth_rewrite 1 [hinner]
  rw [← List.take_add]
  exact List.take_prefix _ _

lemma word_split (run : JsString) :
    run = run.rdropWhile isTrailing ++ run.drop (run.rdropWhile isTrailing).length := by
  have hkept := List.prefix_iff_eq_take.mp (List.rdropWhile_prefix isTrailing run)
  conv_rhs => rw [hkept, List.length_take_of_le (List.rdropWhile_prefix isTrailing run).length_le]
  exact (List.take_append_drop _ _).symm

lemma takes_scan (U : Unicode) (prev : Option UInt16) (pos : ℕ) (u : UInt16) (rest : JsString) :
    Takes pos (u :: rest) (scan U prev pos u rest) := by
  have hone : [u] <+: u :: rest := List.prefix_append [u] rest
  rw [scan]
  by_cases hskip : isSkipped u = true
  · rw [if_pos hskip]
    exact takes_of_prefix (List.cons_ne_nil u []) hone rfl (.gap hskip .nil)
  rw [if_neg hskip]
  by_cases harrow : (u = unitOf '-' ∨ u = unitOf '=') ∧ rest.head? = some (unitOf '>')
  · rw [if_pos harrow]
    obtain ⟨rest, rfl⟩ := List.head?_eq_some_iff.mp harrow.2
    exact takes_draft (List.cons_ne_nil _ _) (List.prefix_append [u, unitOf '>'] rest) rfl
  rw [if_neg harrow]
  by_cases hsingle : u = 0x2192 ∨ u = unitOf '>'
  · rw [if_pos hsingle]
    exact takes_draft (List.cons_ne_nil _ _) hone rfl
  rw [if_neg hsingle]
  by_cases hquote : isQuoteOpenerHere prev u rest = true
  · rw [if_pos hquote]
    refine takes_draft (List.cons_ne_nil _ _) ?_ ?_
    · exact (List.prefix_cons_inj u).mpr (quoted_starts _ rest)
    · simp only [List.cons_append, List.length_cons, List.length_append]
      omega
  rw [if_neg hquote]
  cases normalizeFamilyGlyph u with
  | some family =>
    dsimp only
    cases attachKind u with
    | some kind =>
      dsimp only
      split_ifs
      · refine takes_draft (List.cons_ne_nil _ _) ((List.prefix_cons_inj u).mpr (List.takeWhile_prefix _)) ?_
        exact Nat.add_comm _ _
      · exact takes_draft (List.cons_ne_nil _ _) hone rfl
    | none => exact takes_draft (List.cons_ne_nil _ _) hone rfl
  | none =>
    dsimp only
    by_cases hdigit : isDigit u = true
    · rw [if_pos hdigit]
      exact takes_draft (List.cons_ne_nil _ _) ((List.prefix_cons_inj u).mpr (List.takeWhile_prefix _)) rfl
    rw [if_neg hdigit]
    by_cases hword : WORD_CHARS u = true
    · rw [if_pos hword]
      -- the trailing separators stand behind the word, each a token of its own
      refine takes_of_prefix (List.cons_ne_nil u _) ((List.prefix_cons_inj u).mpr (List.takeWhile_prefix WORD_CHARS))
        (Nat.add_comm _ _) ?_
      have hsplit := congrArg (u :: ·) (word_split (rest.takeWhile WORD_CHARS))
      rw [hsplit, ← List.cons_append]
      exact Tiles.append (tiles_draft (List.cons_ne_nil _ _)) (tiles_puncts _ _)
    rw [if_neg hword]
    exact takes_draft (List.cons_ne_nil _ _) hone rfl

end Steps

section Scanner

variable (U : Unicode)

lemma tiles_scanAll (n : ℕ) (prev : Option UInt16) (pos : ℕ) (s : JsString) (h : s.length ≤ n) :
    TokenTiles pos s (scanAll U n prev pos s) := by
  induction n generalizing prev pos s with
  | zero =>
    obtain rfl := List.eq_nil_of_length_eq_zero (Nat.le_zero.mp h)
    exact .nil
  | succ n ih =>
    cases s with
    | nil => exact .nil
    | cons u rest =>
      obtain ⟨hpos, hle, htiles⟩ := takes_scan U prev pos u rest
      rw [scanAll]
      dsimp only
      have hlength : ((u :: rest).take (scan U prev pos u rest).2).length = (scan U prev pos u rest).2 :=
        List.length_take_of_le hle
      have hrest : ((u :: rest).drop (scan U prev pos u rest).2).length ≤ n := by
        rw [List.length_drop]
        omega
      have hlater := ih ((u :: rest)[(scan U prev pos u rest).2 - 1]?) (pos + (scan U prev pos u rest).2) _ hrest
      have hboth := htiles.append (hlength.symm ▸ hlater)
      rwa [hlength, List.take_append_drop] at hboth

def slice (s : JsString) (start stop : ℕ) : JsString := (s.take stop).drop start

structure Tiling (input : JsString) (tokens : List Token) : Prop where
  numbered : tokens.map Token.i = List.range tokens.length
  inside : ∀ t ∈ tokens, t.start < t.stop ∧ t.stop ≤ input.length
  ordered : tokens.Pairwise fun t u => t.stop ≤ u.start
  text : ∀ t ∈ tokens, t.text = slice input t.start t.stop
  gaps : ∀ k u, input[k]? = some u → (∀ t ∈ tokens, ¬ (t.start ≤ k ∧ k < t.stop)) → isSkipped u = true

lemma tiles_numbered {s : JsString} {pos : ℕ} {tokens : List Token} (h : TokenTiles pos s tokens) :
    TokenTiles pos s (numbered tokens) := by
  refine h.congr ?_
  rw [numbered, List.forall₂_iff_get]
  simp

lemma slice_cut (before text after : JsString) :
    slice (before ++ text ++ after) before.length (before ++ text).length = text := by
  rw [slice, List.take_left, List.drop_left]

theorem lex_tiles (input : JsString) : Tiling input (lex U input).tokens := by
  have htiles : TokenTiles 0 input (lex U input).tokens :=
    tiles_numbered (tiles_scanAll U input.length none 0 input le_rfl)
  refine ⟨?_, fun t ht => ?_, htiles.ordered, fun t ht => ?_, fun k u hu hfree => ?_⟩
  · change (numbered _).map Token.i = List.range (numbered _).length
    rw [numbered, List.length_mapIdx]
    refine List.ext_getElem (by simp) fun k _ _ => ?_
    simp
  · obtain ⟨_, hlt, hle⟩ := htiles.bounds ht
    exact ⟨hlt, by omega⟩
  · obtain ⟨before, after, hs, hstart, hstop⟩ := htiles.cut ht
    rw [Nat.zero_add] at hstart hstop
    nth_rewrite 1 [hstart, hstop, hs]
    exact (slice_cut _ _ _).symm
  · refine htiles.skipped_of_uncovered (k := k) hu ?_
    simpa only [Nat.zero_add] using hfree

end Scanner

end VivimOmega.Nlcl

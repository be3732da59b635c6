import VivimOmega.Library.Fold
import VivimOmega.Nlcl.Mentions
import VivimOmega.Nlcl.Resolved

/-! When the slots of a frame share no words, and swallow none that route another slot. -/

namespace VivimOmega.Nlcl

open Library Library.Json

section Property

variable (world : WorldModel)

/-- Whether the value of a slot is made from its first token alone. -/
def Claim.fromStart (c : Claim) : Bool :=
  match c.slot.kind with
  | .entity =>
    c.mention.quote.isSome || (isWordOrRef c.start && c.start.norm ∈ CONTEXT_REF_WORDS) || c.start.kind = .ref
  | .content =>
    c.mention.quote.isSome || (isWordOrRef c.start && c.start.norm ∈ contentRefWords) ||
      (c.start.kind = .ref && world.entities.any fun e =>
        (ofText ":" ++ c.start.norm).isSuffixOf e.id && (e.textField "body").isSome) || c.mention.text = []
  | .text => c.mention.quote.isSome
  | .enum => c.mention.quote.isSome
  | .rest => false

/-- The tokens that the value of a slot is made from. -/
def Claim.sources (c : Claim) : List ℕ := if !c.asIs && c.fromStart world then [c.start.i] else c.mention.mentioned

/-- A token that routes another slot. -/
def RoutesOther (frame : OpFrame) (fs : FrameSlot) (t : Token) : Prop :=
  ∃ other ∈ frame.slots, other.role ≠ fs.role ∧ isPrepToken t other = true

def Claim.Unrouted (frame : OpFrame) (tokens : List Token) (c : Claim) : Prop :=
  ∀ t ∈ tokens, t.i ∈ c.mention.mentioned → ¬ RoutesOther frame c.slot t

/-- The slots of a frame are filled from words of their own. -/
structure Filling.Separate (frame : OpFrame) (tokens : List Token) (verbTok : ℕ) (st : Filling) : Prop where
  disjoint : st.claims.Pairwise fun c d => List.Disjoint (c.sources world) (d.sources world)
  unrouted : ∀ c ∈ st.claims, c.Unrouted frame tokens
  unknown : ∀ t ∈ unknownTokens frame tokens verbTok st.usedTokens, ∀ c ∈ st.claims, t.i ∉ c.sources world

end Property

section Steps

variable (frame : OpFrame) (tokens : List Token) (verbTok : ℕ) (world : WorldModel) (st : Filling) (fs : FrameSlot)

/-- The preposition of a slot in the first pass, and where its mention begins. -/
def routedStart : Option (Token × Token) :=
  let body := bodyTokens tokens (verbTok + 1)
  if fs.preps = [] then none
  else
    (body.find? fun t => st.isFree t && isPrepToken t fs).bind fun prep =>
      (body.find? fun t => decide (prep.i < t.i) && st.isFree t).bind fun start =>
        let mention := mentionAfter tokens start.i
        if mention.text = [] ∧ mention.quote = none then none else some (prep, start)

/-- No word of the run behind the preposition routes another slot. -/
def RouteClear : Prop :=
  ∀ prep start, routedStart tokens verbTok st fs = some (prep, start) →
    ∀ t ∈ speech tokens start, ¬ RoutesOther frame fs t

def placedStart : Option Token :=
  (bodyTokens tokens (verbTok + 1)).find? fun t => st.isFree t && !isBoundary t frame

def ofStart (start : Token) : Claim :=
  if (fs.kind = .entity ∨ fs.kind = .content) ∧ isContextStart start then ⟨fs, start, ofTokens start.norm [start], false⟩
  else ⟨fs, start, mentionAfter tokens start.i, false⟩

/-- What the second pass fills a slot from. -/
def placedClaim : Option Claim :=
  let body := bodyTokens tokens (verbTok + 1)
  if st.slots.has fs.role then none
  else if fs.kind = .enum then
    (body.find? fun t => st.isFree t && t.kind = .word && t.norm ∈ fs.enumValues).map fun hit =>
      ⟨fs, hit, ofTokens hit.norm [hit], true⟩
  else if fs.kind = .rest then
    match body.filter st.isFree with
    | [] => none
    | first :: more => some ⟨fs, first, ofTokens (joined ((first :: more).map restText)) (first :: more), true⟩
  else if fs.preps ≠ [] ∧ fs.patient = false then none
  else (placedStart frame tokens verbTok st).map (ofStart tokens fs)

/-- What a slot is filled from holds no word that routes another slot nor the beginning of an earlier slot's value, and
an entity slot's phrase, which uses no word up, holds none that is known no further. -/
structure PlaceClear : Prop where
  unrouted : ∀ c, placedClaim frame tokens verbTok st fs = some c → c.Unrouted frame tokens
  fresh : ∀ c, placedClaim frame tokens verbTok st fs = some c →
    ∀ d ∈ st.claims, d.start.i ∈ d.sources world → d.start.i ∉ c.sources world
  phrase : ∀ c, placedClaim frame tokens verbTok st fs = some c →
    c.asIs = false → c.slot.kind = .entity → isContextStart c.start = false →
      ∀ t ∈ tokens, t.i ∈ c.sources world → t.kind = .word → isBoundary t frame = true

end Steps

section Taking

variable {U : Engine} {frame : OpFrame} {tokens : List Token} {verbTok : ℕ} {world : WorldModel}
  {contextOverride : Option ContextRef} {st : Filling} {fs : FrameSlot} {c : Claim} {prep start : Token}

/-- What a fill uses up; an entity slot uses up no more than a context word. -/
def Claim.taken (c : Claim) : List ℕ :=
  if c.asIs then []
  else if c.slot.kind = .entity then
    if isWordOrRef c.start ∧ c.start.norm ∈ CONTEXT_REF_WORDS then [c.start.i] else []
  else c.mention.consumed

lemma mem_taken {k : ℕ} (h : k ∈ c.taken) : k = c.start.i ∨ k ∈ c.mention.consumed := by
  unfold Claim.taken at h
  by_cases hasIs : c.asIs = true
  · rw [if_pos hasIs] at h
    exact absurd h List.not_mem_nil
  · rw [if_neg hasIs] at h
    by_cases hentity : c.slot.kind = .entity
    · rw [if_pos hentity] at h
      by_cases hcontext : isWordOrRef c.start ∧ c.start.norm ∈ CONTEXT_REF_WORDS
      · rw [if_pos hcontext] at h
        exact .inl (List.mem_singleton.mp h)
      · rw [if_neg hcontext] at h
        exact absurd h List.not_mem_nil
    · rw [if_neg hentity] at h
      exact .inr h

lemma makeEntitySlot_consumed {token0 : Token} {mention : Mention} :
    (makeEntitySlot U token0 mention fs world contextOverride).consumed =
      if isWordOrRef token0 ∧ token0.norm ∈ CONTEXT_REF_WORDS then [token0.i] else [] := by
  unfold makeEntitySlot
  by_cases hcontext : isWordOrRef token0 ∧ token0.norm ∈ CONTEXT_REF_WORDS
  · rw [if_pos hcontext, if_pos hcontext]
    cases contextOverride with
    | some ref => rfl
    | none =>
      dsimp only
      unfold contextSlot
      cases resolveContext U token0.norm world fs.entityTypes <;> rfl
  · rw [if_neg hcontext, if_neg hcontext]
    split_ifs with href
    · unfold refSlot
      dsimp only
      split
      · rfl
      · split <;> rfl
    · unfold phraseSlot
      split_ifs
      · rfl
      · dsimp only
        split <;> rfl

lemma contentSlot_consumed {token0 : Token} {mention : Mention} :
    (contentSlot U token0 mention world contextOverride).consumed = mention.consumed := by
  unfold contentSlot
  split
  · rfl
  · split_ifs
    · split <;> rfl
    · dsimp only
      split <;> rfl
    · rfl

lemma enumSlot_consumed {mention : Mention} : (enumSlot U mention fs).consumed = mention.consumed := by
  unfold enumSlot
  dsimp only
  split_ifs <;> rfl

lemma fill_consumed : (c.fill U world contextOverride).consumed = c.taken := by
  unfold Claim.fill Claim.taken
  by_cases hasIs : c.asIs = true
  · rw [if_pos hasIs, if_pos hasIs]
  · rw [if_neg hasIs, if_neg hasIs]
    unfold fillSlotValue
    cases hkind : c.slot.kind with
    | entity => exact makeEntitySlot_consumed
    | content => exact contentSlot_consumed
    | enum => exact enumSlot_consumed
    | text => rfl
    | rest => rfl

lemma routeSlot_routed (h : routedStart tokens verbTok st fs = some (prep, start)) :
    routeSlot U tokens verbTok world contextOverride st fs =
      (Filling.consume { st with usedTokens := st.usedTokens ++ [prep.i] } (mentionAfter tokens start.i).consumed).take U
        world contextOverride ⟨fs, start, mentionAfter tokens start.i, false⟩ := by
  unfold routedStart at h
  unfold routeSlot
  dsimp only at h ⊢
  split_ifs at h ⊢ with hpreps
  obtain ⟨other, hprep, h⟩ := Option.bind_eq_some_iff.mp h
  obtain ⟨first, hstart, h⟩ := Option.bind_eq_some_iff.mp h
  split_ifs at h with hempty
  obtain ⟨rfl, rfl⟩ := Prod.mk.inj (Option.some.inj h)
  have hfirst : ((bodyTokens tokens (verbTok + 1)).find? fun t => decide (other.i < t.i) &&
      Filling.isFree { st with usedTokens := st.usedTokens ++ [other.i] } t) = some first := hstart
  rw [hprep]
  dsimp only
  rw [hfirst]
  exact if_neg hempty

/-- A step that fills nothing. -/
structure Filling.Idle (st st' : Filling) : Prop where
  claims : st'.claims = st.claims
  consumed : st'.consumedAll = st.consumedAll
  slots : st'.slots = st.slots
  used : ∀ k ∈ st.usedTokens, k ∈ st'.usedTokens

lemma routeSlot_idle (U : Engine) (world : WorldModel) (contextOverride : Option ContextRef)
    (h : routedStart tokens verbTok st fs = none) :
    st.Idle (routeSlot U tokens verbTok world contextOverride st fs) ∧
      ∀ k ∈ (routeSlot U tokens verbTok world contextOverride st fs).usedTokens,
        k ∈ st.usedTokens ∨ ∃ t ∈ bodyTokens tokens (verbTok + 1), t.i = k ∧ isPrepToken t fs = true := by
  unfold routedStart at h
  unfold routeSlot
  dsimp only at h ⊢
  split_ifs at h ⊢ with hpreps
  · exact ⟨⟨rfl, rfl, rfl, fun _ => id⟩, fun _ => .inl⟩
  · cases hprep : (bodyTokens tokens (verbTok + 1)).find? fun t => st.isFree t && isPrepToken t fs with
    | none => exact ⟨⟨rfl, rfl, rfl, fun _ => id⟩, fun _ => .inl⟩
    | some prep =>
      have hused : ∀ k ∈ st.usedTokens ++ [prep.i],
          k ∈ st.usedTokens ∨ ∃ t ∈ bodyTokens tokens (verbTok + 1), t.i = k ∧ isPrepToken t fs = true := by
        intro k hk
        obtain hold | hnew := List.mem_append.mp hk
        · exact .inl hold
        · have hfound := List.find?_some hprep
          exact .inr ⟨prep, List.mem_of_find?_eq_some hprep, (List.mem_singleton.mp hnew).symm,
            (Bool.and_eq_true_iff.mp hfound).2⟩
      dsimp only
      split
      · exact ⟨⟨rfl, rfl, rfl, fun _ => List.mem_append_left _⟩, hused⟩
      · next start hstart =>
        have hempty : (mentionAfter tokens start.i).text = [] ∧ (mentionAfter tokens start.i).quote = none := by
          by_contra hfull
          rw [hprep, Option.bind_some] at h
          change (Option.bind (List.find? (fun t => decide (prep.i < t.i) && st.isFree t) _) _) = none at h
          change List.find? (fun t => decide (prep.i < t.i) && st.isFree t) _ = some start at hstart
          rw [hstart, Option.bind_some, if_neg hfull] at h
          exact nomatch h
        rw [if_pos hempty]
        exact ⟨⟨rfl, rfl, rfl, fun _ => List.mem_append_left _⟩, hused⟩

/-- What the second pass marks as consumed before the slot is filled. -/
def Claim.marked (c : Claim) : List ℕ :=
  if c.asIs || ((c.slot.kind = .entity || c.slot.kind = .content) && isContextStart c.start) then c.mention.mentioned else []

lemma placeSlot_placed (h : placedClaim frame tokens verbTok st fs = some c) :
    placeSlot U frame tokens verbTok world contextOverride st fs =
      (st.consume c.marked).take U world contextOverride c := by
  unfold placedClaim placedStart at h
  unfold placeSlot
  dsimp only at h ⊢
  split_ifs at h ⊢ with hhas henum hrest hrouted
  · obtain ⟨hit, hhit, rfl⟩ := Option.map_eq_some_iff.mp h
    rw [hhit]
    rfl
  · cases hfree : (bodyTokens tokens (verbTok + 1)).filter st.isFree with
    | nil =>
      rw [hfree] at h
      cases h
    | cons first more =>
      rw [hfree] at h
      obtain rfl := Option.some.inj h
      rfl
  · obtain ⟨start, hstart, rfl⟩ := Option.map_eq_some_iff.mp h
    rw [hstart]
    dsimp only
    unfold ofStart
    split_ifs with hcontext
    · have hmarked : Claim.marked ⟨fs, start, ofTokens start.norm [start], false⟩ = [start.i] := by
        unfold Claim.marked
        rw [if_pos]
        · rfl
        · simpa using hcontext
      rw [hmarked]
    · have hmarked : Claim.marked ⟨fs, start, mentionAfter tokens start.i, false⟩ = [] := by
        unfold Claim.marked
        rw [if_neg]
        simpa using hcontext
      rw [hmarked]
      have hsame : st.consume [] = st := by simp [Filling.consume]
      rw [hsame]

lemma placeSlot_idle (U : Engine) (world : WorldModel) (contextOverride : Option ContextRef)
    (h : placedClaim frame tokens verbTok st fs = none) :
    st.Idle (placeSlot U frame tokens verbTok world contextOverride st fs) ∧
      (placeSlot U frame tokens verbTok world contextOverride st fs).usedTokens = st.usedTokens := by
  have hmiss : st.Idle (st.miss fs) ∧ (st.miss fs).usedTokens = st.usedTokens := by
    unfold Filling.miss
    split_ifs <;> exact ⟨⟨rfl, rfl, rfl, fun _ => id⟩, rfl⟩
  unfold placedClaim placedStart at h
  unfold placeSlot
  dsimp only at h ⊢
  split_ifs at h ⊢ with hhas henum hrest hrouted
  · exact ⟨⟨rfl, rfl, rfl, fun _ => id⟩, rfl⟩
  · rw [Option.map_eq_none_iff.mp h]
    exact hmiss
  · cases hfree : (bodyTokens tokens (verbTok + 1)).filter st.isFree with
    | nil => exact hmiss
    | cons first more =>
      rw [hfree] at h
      cases h
  · exact hmiss
  · rw [Option.map_eq_none_iff.mp h]
    exact hmiss

end Taking

section Bodies

variable {tokens : List Token} {verbTok : ℕ} {p : Token → Bool} {t start : Token}

lemma mem_body (h : Numbered tokens) : t ∈ bodyTokens tokens (verbTok + 1) ↔
    t ∈ tokens ∧ verbTok < t.i ∧ isSemantic t = true := by
  rw [bodyTokens, List.mem_filter, h.mem_drop, and_assoc]
  rfl

lemma first_of_find (h : Numbered tokens) (hstart : (bodyTokens tokens (verbTok + 1)).find? p = some start)
    (ht : t ∈ bodyTokens tokens (verbTok + 1)) (hp : p t = true) : start.i ≤ t.i := by
  have hsorted : (bodyTokens tokens (verbTok + 1)).Pairwise fun t u => t.i < u.i :=
    h.sorted.sublist (List.filter_sublist.trans (List.drop_sublist _ _))
  generalize bodyTokens tokens (verbTok + 1) = body at hstart ht hsorted
  induction body with
  | nil => exact absurd ht List.not_mem_nil
  | cons first rest ih =>
    obtain ⟨hfirst, hrest⟩ := List.pairwise_cons.mp hsorted
    rw [List.find?_cons] at hstart
    cases hpf : p first with
    | true =>
      rw [hpf] at hstart
      obtain rfl := Option.some.inj hstart
      obtain rfl | ht := List.mem_cons.mp ht
      · exact le_rfl
      · exact (hfirst t ht).le
    | false =>
      rw [hpf] at hstart
      obtain rfl | ht := List.mem_cons.mp ht
      · exact absurd (hpf.symm.trans hp) Bool.false_ne_true
      · exact ih hstart ht hrest

end Bodies

section Sources

variable {tokens : List Token} {verbTok k : ℕ} {world : WorldModel} {c d : Claim} {start t : Token}

/-- A claim on the run from its first token on. -/
structure Claim.Running (tokens : List Token) (verbTok : ℕ) (c : Claim) : Prop where
  taken : c.asIs = false
  start : c.start ∈ bodyTokens tokens (verbTok + 1)
  mention : c.mention = mentionAfter tokens c.start.i

lemma Claim.Running.mentioned (h : c.Running tokens verbTok) (htokens : Numbered tokens) (harrow : c.start.kind ≠ .arrow) :
    c.mention.mentioned = (speech tokens c.start).map Token.i ∧ c.mention.consumed = (run tokens c.start).map Token.i := by
  obtain ⟨hmem, -, hsemantic⟩ := (mem_body htokens).mp h.start
  obtain ⟨text, hmention⟩ := mentionAfter_spec htokens hmem hsemantic harrow
  rw [h.mention, hmention]
  exact ⟨rfl, rfl⟩

lemma start_mem_speech (hsemantic : isSemantic start = true) : start ∈ speech tokens start := by
  refine List.mem_filter.mpr ⟨List.mem_cons_self, ?_⟩
  rw [stop_semantic hsemantic]
  rfl

/-- What a running claim is made from: its first token, or the words of its run. -/
lemma Claim.Running.sources (h : c.Running tokens verbTok) (htokens : Numbered tokens) (world : WorldModel) :
    c.sources world = [c.start.i] ∨ c.sources world = [] ∧ c.start.kind = .arrow ∨
      c.start.kind ≠ .arrow ∧ c.sources world = (speech tokens c.start).map Token.i := by
  obtain ⟨hmem, -, -⟩ := (mem_body htokens).mp h.start
  unfold Claim.sources
  split_ifs with hfrom
  · exact .inl rfl
  · by_cases harrow : c.start.kind = .arrow
    · refine .inr (.inl ⟨?_, harrow⟩)
      rw [h.mention, mentionAfter_arrow htokens hmem harrow]
    · exact .inr (.inr ⟨harrow, (h.mentioned htokens harrow).1⟩)

lemma Claim.Running.start_mem (h : c.Running tokens verbTok) (htokens : Numbered tokens) (hk : k ∈ c.sources world) :
    c.start.i ∈ c.sources world := by
  obtain ⟨-, -, hsemantic⟩ := (mem_body htokens).mp h.start
  obtain hone | ⟨hnone, -⟩ | ⟨-, hall⟩ := h.sources htokens world
  · rw [hone]
    exact List.mem_singleton.mpr rfl
  · rw [hnone] at hk
    exact absurd hk List.not_mem_nil
  · rw [hall]
    exact List.mem_map_of_mem (start_mem_speech hsemantic)

/-- A source behind the first token is a word of the run, as everything semantic up to it is. -/
lemma Claim.Running.between (h : c.Running tokens verbTok) (htokens : Numbered tokens) (hk : k ∈ c.sources world)
    (ht : t ∈ bodyTokens tokens (verbTok + 1)) (hstart : c.start.i ≤ t.i) (hle : t.i ≤ k) : t.i ∈ c.sources world := by
  obtain ⟨hmem, -, -⟩ := (mem_body htokens).mp h.start
  obtain ⟨htmem, -, hsemantic⟩ := (mem_body htokens).mp ht
  obtain hone | ⟨hnone, -⟩ | ⟨-, hall⟩ := h.sources htokens world
  · rw [hone, List.mem_singleton] at hk
    rw [hone, List.mem_singleton]
    omega
  · rw [hnone] at hk
    exact absurd hk List.not_mem_nil
  · rw [hall] at hk ⊢
    obtain ⟨u, hu, rfl⟩ := List.mem_map.mp hk
    refine List.mem_map_of_mem (List.mem_filter.mpr ⟨?_, ?_⟩)
    · exact run_meets htokens hmem htmem hstart (List.mem_filter.mp hu).1 hle
    · rw [stop_semantic hsemantic]
      rfl

/-- All that an arrow begins is itself. -/
lemma Claim.Running.arrow_source (h : c.Running tokens verbTok) (htokens : Numbered tokens)
    (harrow : c.start.kind = .arrow) (ht : t ∈ tokens) (hk : t.i ∈ c.sources world) : t.kind = .arrow := by
  obtain ⟨hmem, -, -⟩ := (mem_body htokens).mp h.start
  obtain hone | ⟨hnone, -⟩ | ⟨hspoken, -⟩ := h.sources htokens world
  · rw [hone, List.mem_singleton] at hk
    rwa [htokens.inj ht hmem hk]
  · rw [hnone] at hk
    exact absurd hk List.not_mem_nil
  · exact absurd harrow hspoken

lemma Claim.Running.start_le (h : c.Running tokens verbTok) (htokens : Numbered tokens) (hk : k ∈ c.sources world) :
    c.start.i ≤ k := by
  obtain ⟨hmem, -, -⟩ := (mem_body htokens).mp h.start
  obtain hone | ⟨hnone, -⟩ | ⟨-, hall⟩ := h.sources htokens world
  · rw [hone, List.mem_singleton] at hk
    exact hk.ge
  · rw [hnone] at hk
    exact absurd hk List.not_mem_nil
  · rw [hall] at hk
    obtain ⟨u, hu, rfl⟩ := List.mem_map.mp hk
    exact ((mem_run htokens hmem).mp (List.mem_filter.mp hu).1).2.1

end Sources

section FirstPass

variable {U : Engine} {frame : OpFrame} {tokens : List Token} {verbTok k : ℕ} {world : WorldModel}
  {contextOverride : Option ContextRef} {st : Filling} {fs : FrameSlot} {c d : Claim} {prep start t : Token}

lemma isFree_iff : st.isFree t = true ↔ t.i ∉ st.consumedAll := decide_eq_true_iff

structure RoutedFrom (tokens : List Token) (verbTok : ℕ) (st : Filling) (fs : FrameSlot) (prep start : Token) : Prop where
  prepMem : prep ∈ bodyTokens tokens (verbTok + 1)
  routes : isPrepToken prep fs = true
  startMem : start ∈ bodyTokens tokens (verbTok + 1)
  free : start.i ∉ st.consumedAll
  behind : prep.i < start.i
  first : ∀ x ∈ bodyTokens tokens (verbTok + 1), prep.i < x.i → x.i < start.i → x.i ∈ st.consumedAll
  spoken : start.kind ≠ .arrow

lemma routedStart_spec (htokens : Numbered tokens) (h : routedStart tokens verbTok st fs = some (prep, start)) :
    RoutedFrom tokens verbTok st fs prep start := by
  unfold routedStart at h
  dsimp only at h
  split_ifs at h
  obtain ⟨other, hprep, h⟩ := Option.bind_eq_some_iff.mp h
  obtain ⟨first, hstart, h⟩ := Option.bind_eq_some_iff.mp h
  split_ifs at h with hempty
  obtain ⟨rfl, rfl⟩ := Prod.mk.inj (Option.some.inj h)
  have hp := List.find?_some hprep
  have hs := List.find?_some hstart
  obtain ⟨-, hroutes⟩ := Bool.and_eq_true_iff.mp hp
  obtain ⟨hbehind, hfree⟩ := Bool.and_eq_true_iff.mp hs
  refine ⟨List.mem_of_find?_eq_some hprep, hroutes, List.mem_of_find?_eq_some hstart, isFree_iff.mp hfree,
    of_decide_eq_true hbehind, fun x hx hlt hbefore => ?_, fun harrow => hempty ?_⟩
  · by_contra hkept
    have hle := first_of_find htokens hstart hx (Bool.and_eq_true_iff.mpr ⟨decide_eq_true hlt, isFree_iff.mpr hkept⟩)
    omega
  · obtain ⟨hmem, -, -⟩ := (mem_body htokens).mp (List.mem_of_find?_eq_some hstart)
    rw [mentionAfter_arrow htokens hmem harrow]
    exact ⟨rfl, rfl⟩

/-- What is consumed is used, and what is used beside it is the verb or a word that routes. -/
structure Filling.Booked (frame : OpFrame) (tokens : List Token) (verbTok : ℕ) (st : Filling) : Prop where
  used : ∀ k ∈ st.consumedAll, k ∈ st.usedTokens
  spare : ∀ k ∈ st.usedTokens,
    k = verbTok ∨ (∃ t ∈ bodyTokens tokens (verbTok + 1), t.i = k ∧ isBoundary t frame = true) ∨ k ∈ st.consumedAll
  filled : ∀ d ∈ st.claims, st.slots.has d.slot.role = true

lemma isBoundary_of_routes (hfs : fs ∈ frame.slots) (h : isPrepToken t fs = true) : isBoundary t frame = true := by
  unfold isPrepToken at h
  unfold isBoundary
  split_ifs at h ⊢ with harrow
  · exact List.any_eq_true.mpr ⟨fs, hfs, h⟩
  · obtain ⟨hword, hnorm⟩ := Bool.and_eq_true_iff.mp h
    refine Bool.and_eq_true_iff.mpr ⟨hword, decide_eq_true ?_⟩
    exact List.mem_flatMap.mpr ⟨fs, hfs, of_decide_eq_true hnorm⟩

lemma routes_of_isBoundary (h : isBoundary t frame = true) : ∃ fs ∈ frame.slots, isPrepToken t fs = true := by
  unfold isBoundary at h
  unfold isPrepToken
  split_ifs at h ⊢ with harrow
  · exact List.any_eq_true.mp h
  · obtain ⟨hword, hnorm⟩ := Bool.and_eq_true_iff.mp h
    obtain ⟨fs, hfs, hmem⟩ := List.mem_flatMap.mp (of_decide_eq_true hnorm)
    exact ⟨fs, hfs, Bool.and_eq_true_iff.mpr ⟨hword, decide_eq_true hmem⟩⟩

lemma Filling.Booked.consume (h : st.Booked frame tokens verbTok) (marks : List ℕ) :
    (st.consume marks).Booked frame tokens verbTok := by
  refine ⟨fun k hk => ?_, fun k hk => ?_, h.filled⟩
  · obtain hold | hnew := List.mem_append.mp hk
    · exact List.mem_append_left _ (h.used k hold)
    · exact List.mem_append_right _ hnew
  · obtain hold | hnew := List.mem_append.mp hk
    · obtain hverb | hroute | hconsumed := h.spare k hold
      · exact .inl hverb
      · exact .inr (.inl hroute)
      · exact .inr (.inr (List.mem_append_left _ hconsumed))
    · exact .inr (.inr (List.mem_append_right _ hnew))

lemma Filling.Booked.note (h : st.Booked frame tokens verbTok) (hprep : prep ∈ bodyTokens tokens (verbTok + 1))
    (hboundary : isBoundary prep frame = true) :
    Filling.Booked frame tokens verbTok { st with usedTokens := st.usedTokens ++ [prep.i] } := by
  refine ⟨fun k hk => List.mem_append_left _ (h.used k hk), fun k hk => ?_, h.filled⟩
  obtain hold | hnew := List.mem_append.mp hk
  · exact h.spare k hold
  · exact .inr (.inl ⟨prep, hprep, (List.mem_singleton.mp hnew).symm, hboundary⟩)

lemma Filling.Booked.take (h : st.Booked frame tokens verbTok) :
    (st.take U world contextOverride c).Booked frame tokens verbTok := by
  have hconsume := h.consume (c.fill U world contextOverride).consumed
  refine ⟨hconsume.used, hconsume.spare, fun d hd => ?_⟩
  change (st.slots.set c.slot.role _).has d.slot.role = true
  rw [OrderedMap.has_set]
  obtain hold | hnew := List.mem_append.mp hd
  · rw [h.filled d hold, Bool.or_true]
  · rw [List.mem_singleton.mp hnew]
    simp

lemma booked_route (htokens : Numbered tokens) (hfs : fs ∈ frame.slots) (h : st.Booked frame tokens verbTok) :
    (routeSlot U tokens verbTok world contextOverride st fs).Booked frame tokens verbTok := by
  cases hstart : routedStart tokens verbTok st fs with
  | some p =>
    have hspec := routedStart_spec htokens hstart
    rw [routeSlot_routed hstart]
    exact ((h.note hspec.prepMem (isBoundary_of_routes hfs hspec.routes)).consume _).take
  | none =>
    obtain ⟨hidle, hused⟩ := routeSlot_idle U world contextOverride hstart
    refine ⟨fun k hk => ?_, fun k hk => ?_, fun d hd => ?_⟩
    · rw [hidle.consumed] at hk
      exact hidle.used k (h.used k hk)
    · obtain hold | ⟨t, ht, hk, hroutes⟩ := hused k hk
      · rw [hidle.consumed]
        exact h.spare k hold
      · exact .inr (.inl ⟨t, ht, hk, isBoundary_of_routes hfs hroutes⟩)
    · rw [hidle.claims] at hd
      rw [hidle.slots]
      exact h.filled d hd

/-- What the first pass keeps: its claims run from behind their prepositions on and have their runs consumed. -/
structure Filling.Routing (frame : OpFrame) (tokens : List Token) (verbTok : ℕ) (st : Filling) (d : Claim) : Prop where
  known : d.slot ∈ frame.slots
  running : d.Running tokens verbTok
  spoken : d.start.kind ≠ .arrow
  eaten : ∀ k ∈ d.mention.consumed, k ∈ st.consumedAll
  behind : ∃ prep ∈ bodyTokens tokens (verbTok + 1), isPrepToken prep d.slot = true ∧ prep.i < d.start.i ∧
    ∀ x ∈ bodyTokens tokens (verbTok + 1), prep.i < x.i → x.i < d.start.i → x.i ∈ st.consumedAll

structure Filling.FirstPass (frame : OpFrame) (tokens : List Token) (verbTok : ℕ) (world : WorldModel) (st : Filling)
    (rest : List FrameSlot) : Prop where
  routing : ∀ d ∈ st.claims, st.Routing frame tokens verbTok d
  ahead : ∀ d ∈ st.claims, ∀ fs ∈ rest, d.slot.role ≠ fs.role
  unrouted : ∀ d ∈ st.claims, d.Unrouted frame tokens
  disjoint : st.claims.Pairwise fun c d => List.Disjoint (c.sources world) (d.sources world)

lemma Filling.Routing.mono {st' : Filling} (h : st.Routing frame tokens verbTok d)
    (hconsumed : ∀ k ∈ st.consumedAll, k ∈ st'.consumedAll) : st'.Routing frame tokens verbTok d := by
  obtain ⟨prep, hprep, hroutes, hlt, hfirst⟩ := h.behind
  exact ⟨h.known, h.running, h.spoken, fun k hk => hconsumed k (h.eaten k hk),
    prep, hprep, hroutes, hlt, fun x hx hbehind hbefore => hconsumed _ (hfirst x hx hbehind hbefore)⟩

lemma Claim.Running.sources_speech (h : c.Running tokens verbTok) (htokens : Numbered tokens)
    (hspoken : c.start.kind ≠ .arrow) (hk : k ∈ c.sources world) : ∃ t ∈ speech tokens c.start, t.i = k := by
  obtain ⟨-, -, hsemantic⟩ := (mem_body htokens).mp h.start
  obtain hone | ⟨-, harrow⟩ | ⟨-, hall⟩ := h.sources htokens world
  · rw [hone, List.mem_singleton] at hk
    exact ⟨c.start, start_mem_speech hsemantic, hk.symm⟩
  · exact absurd harrow hspoken
  · rw [hall] at hk
    exact List.mem_map.mp hk

lemma Claim.Running.sources_mentioned (h : c.Running tokens verbTok) (htokens : Numbered tokens)
    (hspoken : c.start.kind ≠ .arrow) (hk : k ∈ c.sources world) : k ∈ c.mention.mentioned := by
  obtain ⟨t, ht, rfl⟩ := h.sources_speech htokens hspoken hk
  rw [(h.mentioned htokens hspoken).1]
  exact List.mem_map_of_mem ht

lemma Claim.Running.sources_consumed (h : c.Running tokens verbTok) (htokens : Numbered tokens)
    (hspoken : c.start.kind ≠ .arrow) (hk : k ∈ c.sources world) : k ∈ c.mention.consumed := by
  obtain ⟨t, ht, rfl⟩ := h.sources_speech htokens hspoken hk
  rw [(h.mentioned htokens hspoken).2]
  exact List.mem_map_of_mem (List.mem_filter.mp ht).1

lemma routed_running (hstart : RoutedFrom tokens verbTok st fs prep start) :
    Claim.Running tokens verbTok ⟨fs, start, mentionAfter tokens start.i, false⟩ :=
  ⟨rfl, hstart.startMem, rfl⟩

/-- A run that no word of another slot is in is met by no run before it. -/
lemma routed_disjoint (htokens : Numbered tokens) (hstart : RoutedFrom tokens verbTok st fs prep start)
    (hclear : ∀ t ∈ speech tokens start, ¬ RoutesOther frame fs t) (hd : st.Routing frame tokens verbTok d)
    (hrole : d.slot.role ≠ fs.role) :
    List.Disjoint (d.sources world) (Claim.sources world ⟨fs, start, mentionAfter tokens start.i, false⟩) := by
  have hrunning := routed_running hstart
  intro k hkd hkc
  obtain hlt | hle := Nat.lt_or_ge start.i d.start.i
  rotate_left
  · -- the run before it goes on over its start
    have hmem := hd.running.between htokens hkd hstart.startMem hle (hrunning.start_le htokens hkc)
    exact hstart.free (hd.eaten _ (hd.running.sources_consumed htokens hd.spoken hmem))
  · -- its own run goes on over the preposition of the one before it
    obtain ⟨other, hother, hroutes, hbefore, hfirst⟩ := hd.behind
    have hbehind : start.i ≤ other.i := by
      by_contra hnot
      exact hstart.free (hfirst start hstart.startMem (Nat.lt_of_not_le hnot) hlt)
    have hle := hd.running.start_le htokens hkd
    have hmem := hrunning.between htokens hkc hother hbehind (by omega)
    obtain ⟨t, ht, hsame⟩ := hrunning.sources_speech htokens hstart.spoken hmem
    obtain ⟨hstartMem, -, -⟩ := (mem_body htokens).mp hstart.startMem
    have htmem := ((mem_run htokens hstartMem).mp (List.mem_filter.mp ht).1).1
    obtain rfl := htokens.inj htmem ((mem_body htokens).mp hother).1 hsame
    exact hclear t ht ⟨d.slot, hd.known, hrole, hroutes⟩

lemma routed_unrouted (htokens : Numbered tokens) (hstart : RoutedFrom tokens verbTok st fs prep start) :
    Claim.Unrouted frame tokens ⟨fs, start, mentionAfter tokens start.i, false⟩ ↔
      ∀ t ∈ speech tokens start, ¬ RoutesOther frame fs t := by
  have hmentioned := ((routed_running hstart).mentioned htokens hstart.spoken).1
  obtain ⟨hstartMem, -, -⟩ := (mem_body htokens).mp hstart.startMem
  constructor
  · intro hall t ht
    refine hall t ((mem_run htokens hstartMem).mp (List.mem_filter.mp ht).1).1 ?_
    rw [hmentioned]
    exact List.mem_map_of_mem ht
  · intro hall t ht hmem
    rw [hmentioned] at hmem
    obtain ⟨u, hu, hsame⟩ := List.mem_map.mp hmem
    obtain rfl := htokens.inj ((mem_run htokens hstartMem).mp (List.mem_filter.mp hu).1).1 ht hsame
    exact hall u hu

lemma route_consumed (U : Engine) (tokens : List Token) (verbTok : ℕ) (world : WorldModel)
    (contextOverride : Option ContextRef) (st : Filling) (fs : FrameSlot) : ∀ k ∈ st.consumedAll, k ∈ (routeSlot U tokens verbTok world contextOverride st fs).consumedAll := by
  intro k hk
  cases hstart : routedStart tokens verbTok st fs with
  | some p =>
    rw [routeSlot_routed hstart]
    exact List.mem_append_left _ (List.mem_append_left _ hk)
  | none =>
    rw [(routeSlot_idle U world contextOverride hstart).1.consumed]
    exact hk

lemma firstPass_route (htokens : Numbered tokens) {rest : List FrameSlot} (hfs : fs ∈ frame.slots)
    (hroles : ∀ other ∈ rest, fs.role ≠ other.role)
    (h : st.FirstPass frame tokens verbTok world (fs :: rest)) (hclear : RouteClear frame tokens verbTok st fs) :
    (routeSlot U tokens verbTok world contextOverride st fs).FirstPass frame tokens verbTok world rest := by
  have hahead : ∀ d ∈ st.claims, ∀ other ∈ rest, d.slot.role ≠ other.role :=
    fun d hd other hother => h.ahead d hd other (List.mem_cons_of_mem _ hother)
  have hmono := route_consumed U tokens verbTok world contextOverride st fs
  cases hrouted : routedStart tokens verbTok st fs with
  | none =>
    obtain ⟨hidle, -⟩ := routeSlot_idle U world contextOverride hrouted
    refine ⟨?_, ?_, ?_, ?_⟩
    all_goals rw [hidle.claims]
    · exact fun d hd => (h.routing d hd).mono hmono
    · exact hahead
    · exact h.unrouted
    · exact h.disjoint
  | some p =>
    obtain ⟨prep, start⟩ := p
    have hstart := routedStart_spec htokens hrouted
    have hspeech := hclear prep start hrouted
    rw [routeSlot_routed hrouted] at hmono ⊢
    have hnew (k : ℕ) (hk : k ∈ (mentionAfter tokens start.i).consumed) : k ∈ (((Filling.consume
        { st with usedTokens := st.usedTokens ++ [prep.i] } (mentionAfter tokens start.i).consumed).take U world
          contextOverride ⟨fs, start, mentionAfter tokens start.i, false⟩).consumedAll) :=
      List.mem_append_left _ (List.mem_append_right _ hk)
    refine ⟨List.forall_mem_append.mpr ⟨fun d hd => (h.routing d hd).mono hmono, ?_⟩,
      List.forall_mem_append.mpr ⟨hahead, ?_⟩, List.forall_mem_append.mpr ⟨h.unrouted, ?_⟩, ?_⟩
    · refine List.forall_mem_singleton.mpr ⟨hfs, routed_running hstart, hstart.spoken, hnew, prep, hstart.prepMem,
        hstart.routes, hstart.behind, fun x hx hbehind hbefore => hmono _ (hstart.first x hx hbehind hbefore)⟩
    · exact List.forall_mem_singleton.mpr hroles
    · exact List.forall_mem_singleton.mpr ((routed_unrouted htokens hstart).mpr hspeech)
    · refine List.pairwise_append.mpr ⟨h.disjoint, List.pairwise_singleton _ _, fun d hd c hc => ?_⟩
      obtain rfl := List.mem_singleton.mp hc
      exact routed_disjoint htokens hstart hspeech (h.routing d hd) (h.ahead d hd fs List.mem_cons_self)

end FirstPass

section SecondPass

variable {U : Engine} {frame : OpFrame} {tokens : List Token} {verbTok k : ℕ} {world : WorldModel}
  {contextOverride : Option ContextRef} {st : Filling} {fs : FrameSlot} {c d : Claim} {start t : Token}

def Claim.eats (c : Claim) : List ℕ := c.marked ++ c.taken

lemma placed_consumed (U : Engine) (world : WorldModel) (contextOverride : Option ContextRef) (h : placedClaim frame tokens verbTok st fs = some c) :
    (placeSlot U frame tokens verbTok world contextOverride st fs).consumedAll = st.consumedAll ++ c.eats ∧
      (placeSlot U frame tokens verbTok world contextOverride st fs).claims = st.claims ++ [c] := by
  rw [placeSlot_placed h]
  refine ⟨?_, rfl⟩
  change st.consumedAll ++ c.marked ++ (c.fill U world contextOverride).consumed = _
  rw [fill_consumed, List.append_assoc]
  rfl

/-- How the second pass takes what it fills a slot from: one token, all that is free, or a run. -/
inductive Placement (frame : OpFrame) (tokens : List Token) (verbTok : ℕ) (world : WorldModel) (st : Filling) (c : Claim) : Prop
  | hit (whole : c.asIs = true) (start : c.start ∈ bodyTokens tokens (verbTok + 1)) (free : c.start.i ∉ st.consumedAll)
      (word : c.start.kind = .word) (sources : c.sources world = [c.start.i]) (mentioned : c.mention.mentioned = [c.start.i])
      (eats : ∀ k, k ∈ c.eats ↔ k = c.start.i)
  | single (context : isContextStart c.start = true) (placed : placedStart frame tokens verbTok st = some c.start)
      (sources : c.sources world = [c.start.i])
      (eats : ∀ k, k ∈ c.eats ↔ k = c.start.i)
  | all (whole : c.asIs = true) (free : ∀ k, k ∈ c.sources world ↔ ∃ t ∈ bodyTokens tokens (verbTok + 1), t.i ∉ st.consumedAll ∧ t.i = k)
      (eats : ∀ k, k ∈ c.eats ↔ k ∈ c.sources world)
  | run (placed : placedStart frame tokens verbTok st = some c.start) (running : c.Running tokens verbTok)
      (plain : c.slot.kind = .entity → isContextStart c.start = false)
      (eats : c.eats = if c.slot.kind = .entity then [] else c.mention.consumed)

structure PlacedFrom (frame : OpFrame) (tokens : List Token) (verbTok : ℕ) (st : Filling) (start : Token) : Prop where
  startMem : start ∈ bodyTokens tokens (verbTok + 1)
  free : start.i ∉ st.consumedAll
  open_ : isBoundary start frame = false
  first : ∀ x ∈ bodyTokens tokens (verbTok + 1), x.i ∉ st.consumedAll → isBoundary x frame = false → start.i ≤ x.i

lemma placedStart_spec (htokens : Numbered tokens) (h : placedStart frame tokens verbTok st = some start) :
    PlacedFrom frame tokens verbTok st start := by
  have hfound := List.find?_some h
  obtain ⟨hfree, hopen⟩ := Bool.and_eq_true_iff.mp hfound
  refine ⟨List.mem_of_find?_eq_some h, isFree_iff.mp hfree, (Bool.not_eq_true' _).mp hopen, fun x hx hkept hplain => ?_⟩
  exact first_of_find htokens h hx
    (Bool.and_eq_true_iff.mpr ⟨isFree_iff.mpr hkept, (Bool.not_eq_true' _).mpr hplain⟩)

lemma context_isContextStart (h : isWordOrRef start = true ∧ start.norm ∈ CONTEXT_REF_WORDS) : isContextStart start = true := by
  have hwords : ∀ w ∈ CONTEXT_REF_WORDS, w ∈ contentRefWords := by decide
  obtain ⟨hkind, hnorm⟩ := h
  unfold isWordOrRef at hkind
  unfold isContextStart
  obtain hword | href := Bool.or_eq_true_iff.mp hkind
  · rw [hword, decide_eq_true (hwords _ hnorm)]
    exact Bool.or_true _
  · rw [href]
    rfl

lemma placedClaim_slot (h : placedClaim frame tokens verbTok st fs = some c) :
    c.slot = fs ∧ st.slots.has fs.role = false := by
  unfold placedClaim at h
  dsimp only at h
  split_ifs at h with hhas henum hrest hrouted
  all_goals refine ⟨?_, Bool.eq_false_iff.mpr hhas⟩
  · obtain ⟨hit, -, rfl⟩ := Option.map_eq_some_iff.mp h
    rfl
  · split at h
    · cases h
    · obtain rfl := Option.some.inj h
      rfl
  · obtain ⟨start, -, rfl⟩ := Option.map_eq_some_iff.mp h
    unfold ofStart
    split_ifs <;> rfl

lemma placement_hit (hstart : start ∈ bodyTokens tokens (verbTok + 1)) (hfree : start.i ∉ st.consumedAll)
    (hword : start.kind = .word) :
    Placement frame tokens verbTok world st ⟨fs, start, ofTokens start.norm [start], true⟩ := by
  refine .hit rfl hstart hfree hword rfl rfl fun k => ?_
  change k ∈ [start.i] ++ [] ↔ k = start.i
  simp

lemma placement_all {first : Token} {more : List Token} {text : JsString}
    (hfree : (bodyTokens tokens (verbTok + 1)).filter st.isFree = first :: more) :
    Placement frame tokens verbTok world st ⟨fs, first, ofTokens text (first :: more), true⟩ := by
  refine .all rfl (fun k => ?_) fun k => ?_
  · change k ∈ (first :: more).map Token.i ↔ _
    rw [← hfree, List.mem_map]
    simp only [List.mem_filter, isFree_iff, and_assoc]
  · change k ∈ (first :: more).map Token.i ++ [] ↔ k ∈ (first :: more).map Token.i
    rw [List.append_nil]

lemma placement_start (hplaced : placedStart frame tokens verbTok st = some start) :
    Placement frame tokens verbTok world st (ofStart tokens fs start) := by
  unfold ofStart
  split_ifs with hcontext
  · refine .single hcontext.2 hplaced ?_ fun k => ?_
    · unfold Claim.sources
      split_ifs <;> rfl
    · have hmarked : Claim.marked ⟨fs, start, ofTokens start.norm [start], false⟩ = [start.i] := by
        unfold Claim.marked
        rw [if_pos]
        · rfl
        · simpa using hcontext
      rw [Claim.eats, hmarked]
      unfold Claim.taken
      dsimp only
      split_ifs <;> simp [ofTokens]
  · refine .run hplaced ⟨rfl, List.mem_of_find?_eq_some hplaced, rfl⟩ (fun hentity => ?_) ?_
    · by_contra hstart
      exact hcontext ⟨.inl hentity, (Bool.not_eq_false _).mp hstart⟩
    · have hmarked : Claim.marked ⟨fs, start, mentionAfter tokens start.i, false⟩ = [] := by
        unfold Claim.marked
        rw [if_neg]
        simpa using hcontext
      rw [Claim.eats, hmarked]
      unfold Claim.taken
      dsimp only
      rw [if_neg Bool.false_ne_true]
      by_cases hentity : fs.kind = .entity
      · rw [if_pos hentity, if_pos hentity,
          if_neg fun hword => hcontext ⟨.inl hentity, context_isContextStart hword⟩]
        rfl
      · rw [if_neg hentity, if_neg hentity]
        rfl

lemma placedClaim_cases (world : WorldModel) (h : placedClaim frame tokens verbTok st fs = some c) :
    Placement frame tokens verbTok world st c := by
  unfold placedClaim at h
  dsimp only at h
  split_ifs at h with hhas henum hrest hrouted
  · obtain ⟨hit, hhit, rfl⟩ := Option.map_eq_some_iff.mp h
    have hfound := List.find?_some hhit
    simp only [Bool.and_eq_true, decide_eq_true_eq] at hfound
    exact placement_hit (List.mem_of_find?_eq_some hhit) (isFree_iff.mp hfound.1.1) hfound.1.2
  · split at h
    · cases h
    · next first more hfree =>
      obtain rfl := Option.some.inj h
      exact placement_all hfree
  · obtain ⟨start, hstart, rfl⟩ := Option.map_eq_some_iff.mp h
    exact placement_start hstart

/-- A claim that has all of its words consumed. -/
structure Filling.Held (tokens : List Token) (verbTok : ℕ) (world : WorldModel) (st : Filling) (d : Claim) : Prop where
  eaten : ∀ k ∈ d.sources world, k ∈ st.consumedAll
  shape : d.Running tokens verbTok ∨ (∀ k ∈ d.sources world, k = d.start.i) ∨
    ∀ x ∈ bodyTokens tokens (verbTok + 1), x.i ∈ st.consumedAll

/-- A phrase that has none of its words consumed, so that it is the next that a slot would begin with. -/
structure Filling.Loose (frame : OpFrame) (tokens : List Token) (verbTok : ℕ) (world : WorldModel) (st : Filling)
    (d : Claim) : Prop where
  running : d.Running tokens verbTok
  placed : PlacedFrom frame tokens verbTok st d.start
  start : d.start.i ∈ d.sources world
  routing : ∀ t ∈ tokens, t.i ∈ d.sources world → t.kind = .word → isBoundary t frame = true

structure Filling.SecondPass (frame : OpFrame) (tokens : List Token) (verbTok : ℕ) (world : WorldModel) (st : Filling) :
    Prop where
  booked : st.Booked frame tokens verbTok
  held : ∀ d ∈ st.claims, st.Held tokens verbTok world d ∨ st.Loose frame tokens verbTok world d
  unrouted : ∀ d ∈ st.claims, d.Unrouted frame tokens
  disjoint : st.claims.Pairwise fun c d => List.Disjoint (c.sources world) (d.sources world)

lemma Filling.FirstPass.second (htokens : Numbered tokens) (hbooked : st.Booked frame tokens verbTok)
    (h : st.FirstPass frame tokens verbTok world []) : st.SecondPass frame tokens verbTok world := by
  refine ⟨hbooked, fun d hd => .inl ⟨fun k hk => ?_, .inl (h.routing d hd).running⟩, h.unrouted, h.disjoint⟩
  have hrouting := h.routing d hd
  exact hrouting.eaten k (hrouting.running.sources_consumed htokens hrouting.spoken hk)

/-- Where no slot's value begins at a word of it, what is placed shares no word with what is filled. -/
lemma placed_disjoint (htokens : Numbered tokens) (hplace : Placement frame tokens verbTok world st c)
    (hfresh : d.start.i ∈ d.sources world → d.start.i ∉ c.sources world)
    (hd : st.Held tokens verbTok world d ∨ st.Loose frame tokens verbTok world d)
    (hunrouted : c.Unrouted frame tokens) (hrole : d.slot.role ≠ c.slot.role) (hother : d.Unrouted frame tokens) :
    List.Disjoint (d.sources world) (c.sources world) := by
  intro k hkd hkc
  cases hplace with
  | hit hwhole hstart hfree hword hsources hmentioned heats =>
    rw [hsources, List.mem_singleton] at hkc
    subst hkc
    obtain hheld | hloose := hd
    · exact hfree (hheld.eaten _ hkd)
    · -- a plain word of a phrase routes, and it is no word of the phrase's slot or none of this one
      obtain ⟨hmem, -, -⟩ := (mem_body htokens).mp hstart
      obtain ⟨fs, hfs, hroutes⟩ := routes_of_isBoundary (hloose.routing _ hmem hkd hword)
      by_cases hsame : fs.role = c.slot.role
      · refine hother _ hmem ?_ ⟨fs, hfs, fun heq => hrole (heq.symm.trans hsame), hroutes⟩
        refine hloose.running.sources_mentioned htokens (fun harrow => ?_) hkd
        exact nomatch hword.symm.trans (hloose.running.arrow_source htokens harrow hmem hkd)
      · refine hunrouted _ hmem ?_ ⟨fs, hfs, hsame, hroutes⟩
        rw [hmentioned]
        exact List.mem_singleton.mpr rfl
  | single hcontext hplaced hsources heats =>
    have hstart := placedStart_spec htokens hplaced
    rw [hsources, List.mem_singleton] at hkc
    subst hkc
    obtain hheld | hloose := hd
    · exact hstart.free (hheld.eaten _ hkd)
    · have hle := hloose.running.start_le htokens hkd
      have hge := hstart.first _ hloose.placed.startMem hloose.placed.free hloose.placed.open_
      refine hfresh hloose.start ?_
      rw [hsources, List.mem_singleton]
      omega
  | all hwhole hfree heats =>
    obtain ⟨t, -, hkept, rfl⟩ := (hfree k).mp hkc
    obtain hheld | hloose := hd
    · exact hkept (hheld.eaten _ hkd)
    · exact hfresh hloose.start ((hfree _).mpr ⟨d.start, hloose.placed.startMem, hloose.placed.free, rfl⟩)
  | run hplaced hrunning hplain heats =>
    have hstart := placedStart_spec htokens hplaced
    have hle := hrunning.start_le htokens hkc
    obtain ⟨heaten, hshape⟩ | hloose := hd
    · obtain hrun | hone | hall := hshape
      · obtain hlt | hge := Nat.lt_or_ge c.start.i d.start.i
        · exact hfresh (hrun.start_mem htokens hkd)
            (hrunning.between htokens hkc hrun.start hlt.le (hrun.start_le htokens hkd))
        · exact hstart.free (heaten _ (hrun.between htokens hkd hstart.startMem hge hle))
      · have heq := hone k hkd
        exact hfresh (heq ▸ hkd) (heq ▸ hkc)
      · exact hstart.free (hall _ hstart.startMem)
    · have hge := hstart.first _ hloose.placed.startMem hloose.placed.free hloose.placed.open_
      exact hfresh hloose.start
        (hrunning.between htokens hkc hloose.running.start hge (hloose.running.start_le htokens hkd))

lemma booked_place (U : Engine) (world : WorldModel) (contextOverride : Option ContextRef) (fs : FrameSlot)
    (h : st.Booked frame tokens verbTok) :
    (placeSlot U frame tokens verbTok world contextOverride st fs).Booked frame tokens verbTok := by
  cases hplaced : placedClaim frame tokens verbTok st fs with
  | some c =>
    rw [placeSlot_placed hplaced]
    exact (h.consume _).take
  | none =>
    obtain ⟨hidle, hused⟩ := placeSlot_idle U world contextOverride hplaced
    refine ⟨fun k hk => ?_, fun k hk => ?_, fun d hd => ?_⟩
    · rw [hidle.consumed] at hk
      exact hidle.used k (h.used k hk)
    · rw [hidle.consumed]
      rw [hused] at hk
      exact h.spare k hk
    · rw [hidle.claims] at hd
      rw [hidle.slots]
      exact h.filled d hd

lemma Filling.Held.mono {st' : Filling} (h : st.Held tokens verbTok world d)
    (hconsumed : ∀ k ∈ st.consumedAll, k ∈ st'.consumedAll) : st'.Held tokens verbTok world d := by
  refine ⟨fun k hk => hconsumed k (h.eaten k hk), ?_⟩
  obtain hrun | hone | hall := h.shape
  · exact .inl hrun
  · exact .inr (.inl hone)
  · exact .inr (.inr fun x hx => hconsumed _ (hall x hx))

lemma PlacedFrom.mono {st' : Filling} (h : PlacedFrom frame tokens verbTok st start)
    (hconsumed : ∀ k ∈ st.consumedAll, k ∈ st'.consumedAll) (hfree : start.i ∉ st'.consumedAll) :
    PlacedFrom frame tokens verbTok st' start :=
  ⟨h.startMem, hfree, h.open_, fun x hx hkept hplain => h.first x hx (fun hk => hkept (hconsumed _ hk)) hplain⟩

/-- What is placed leaves the start of a loose phrase alone, as it would have to begin with it. -/
lemma loose_kept (htokens : Numbered tokens) (hplace : Placement frame tokens verbTok world st c)
    (hfresh : d.start.i ∉ c.sources world) (hloose : PlacedFrom frame tokens verbTok st d.start) :
    d.start.i ∉ c.eats := by
  cases hplace with
  | hit hwhole hstart hfree hword hsources hmentioned heats =>
    rw [heats]
    rwa [hsources, List.mem_singleton] at hfresh
  | single hcontext hplaced hsources heats =>
    rw [heats]
    rwa [hsources, List.mem_singleton] at hfresh
  | all hwhole hfree heats => rwa [heats]
  | run hplaced hrunning hplain heats =>
    have hstart := placedStart_spec htokens hplaced
    obtain ⟨hmem, -, hsemantic⟩ := (mem_body htokens).mp hstart.startMem
    have heq : c.start.i = d.start.i :=
      le_antisymm (hstart.first _ hloose.startMem hloose.free hloose.open_)
        (hloose.first _ hstart.startMem hstart.free hstart.open_)
    rw [heats]
    split_ifs with hentity
    · exact List.not_mem_nil
    · by_cases harrow : c.start.kind = .arrow
      · rw [hrunning.mention, mentionAfter_arrow htokens hmem harrow]
        exact List.not_mem_nil
      · refine absurd ?_ hfresh
        rw [← heq]
        obtain hone | ⟨-, hnot⟩ | ⟨-, hall⟩ := hrunning.sources htokens world
        · rw [hone]
          exact List.mem_singleton.mpr rfl
        · exact absurd hnot harrow
        · rw [hall]
          exact List.mem_map_of_mem (start_mem_speech hsemantic)

/-- What is placed is held, but for an entity slot's phrase and an arrow. -/
lemma placed_held {st' : Filling} (htokens : Numbered tokens) (hplace : Placement frame tokens verbTok world st c)
    (hconsumed : st'.consumedAll = st.consumedAll ++ c.eats)
    (hphrase : c.asIs = false → c.slot.kind = .entity → isContextStart c.start = false →
      ∀ t ∈ tokens, t.i ∈ c.sources world → t.kind = .word → isBoundary t frame = true) :
    st'.Held tokens verbTok world c ∨ st'.Loose frame tokens verbTok world c := by
  cases hplace with
  | hit hwhole hstart hfree hword hsources hmentioned heats =>
    refine .inl ⟨fun k hk => ?_, .inr (.inl fun k hk => ?_)⟩
    · rw [hsources, List.mem_singleton] at hk
      rw [hconsumed]
      exact List.mem_append_right _ ((heats k).mpr hk)
    · rwa [hsources, List.mem_singleton] at hk
  | single hcontext hplaced hsources heats =>
    refine .inl ⟨fun k hk => ?_, .inr (.inl fun k hk => ?_)⟩
    · rw [hsources, List.mem_singleton] at hk
      rw [hconsumed]
      exact List.mem_append_right _ ((heats k).mpr hk)
    · rwa [hsources, List.mem_singleton] at hk
  | all hwhole hfree heats =>
    refine .inl ⟨fun k hk => ?_, .inr (.inr fun x hx => ?_)⟩
    · rw [hconsumed]
      exact List.mem_append_right _ ((heats k).mpr hk)
    · rw [hconsumed]
      by_cases hkept : x.i ∈ st.consumedAll
      · exact List.mem_append_left _ hkept
      · exact List.mem_append_right _ ((heats _).mpr ((hfree _).mpr ⟨x, hx, hkept, rfl⟩))
  | run hplaced hrunning hplain heats =>
    have hstart := placedStart_spec htokens hplaced
    obtain ⟨hmem, -, -⟩ := (mem_body htokens).mp hstart.startMem
    have hloose (hnone : c.eats = []) (hwords : ∀ t ∈ tokens, t.i ∈ c.sources world → t.kind = .word → isBoundary t frame = true) :
        st'.Held tokens verbTok world c ∨ st'.Loose frame tokens verbTok world c := by
      rw [hnone, List.append_nil] at hconsumed
      by_cases hempty : c.sources world = []
      · refine .inl ⟨fun k hk => ?_, .inl hrunning⟩
        rw [hempty] at hk
        exact absurd hk List.not_mem_nil
      · obtain ⟨k, hk⟩ := List.exists_mem_of_ne_nil _ hempty
        refine .inr ⟨hrunning, hstart.mono (fun j hj => ?_) ?_, hrunning.start_mem htokens hk, hwords⟩
        · rwa [hconsumed]
        · rw [hconsumed]
          exact hstart.free
    by_cases hentity : c.slot.kind = .entity
    · rw [if_pos hentity] at heats
      exact hloose heats (hphrase hrunning.taken hentity (hplain hentity))
    · rw [if_neg hentity] at heats
      by_cases harrow : c.start.kind = .arrow
      · rw [hrunning.mention, mentionAfter_arrow htokens hmem harrow] at heats
        refine hloose heats fun t ht hk hword => ?_
        exact nomatch hword.symm.trans (hrunning.arrow_source htokens harrow ht hk)
      · refine .inl ⟨fun k hk => ?_, .inl hrunning⟩
        rw [hconsumed, heats]
        exact List.mem_append_right _ (hrunning.sources_consumed htokens harrow hk)

lemma secondPass_place (htokens : Numbered tokens) (h : st.SecondPass frame tokens verbTok world)
    (hclear : PlaceClear frame tokens verbTok world st fs) :
    (placeSlot U frame tokens verbTok world contextOverride st fs).SecondPass frame tokens verbTok world := by
  have hbooked := booked_place U world contextOverride fs h.booked
  cases hplaced : placedClaim frame tokens verbTok st fs with
  | none =>
    obtain ⟨hidle, -⟩ := placeSlot_idle U world contextOverride hplaced
    refine ⟨hbooked, ?_, ?_, ?_⟩
    all_goals rw [hidle.claims]
    · intro d hd
      obtain hheld | hloose := h.held d hd
      · exact .inl (hheld.mono fun k hk => by rwa [hidle.consumed])
      · refine .inr ⟨hloose.running, hloose.placed.mono (fun k hk => ?_) ?_, hloose.start, hloose.routing⟩
        · rwa [hidle.consumed]
        · rw [hidle.consumed]
          exact hloose.placed.free
    · exact h.unrouted
    · exact h.disjoint
  | some c =>
    obtain ⟨hconsumed, hclaims⟩ := placed_consumed U world contextOverride hplaced
    obtain ⟨hslot, hempty⟩ := placedClaim_slot hplaced
    have hplace := placedClaim_cases world hplaced
    have hunrouted := hclear.unrouted c hplaced
    have hfresh := hclear.fresh c hplaced
    refine ⟨hbooked, ?_, ?_, ?_⟩
    all_goals rw [hclaims]
    · refine List.forall_mem_append.mpr ⟨fun d hd => ?_, List.forall_mem_singleton.mpr ?_⟩
      · obtain hheld | hloose := h.held d hd
        · refine .inl (hheld.mono fun k hk => ?_)
          rw [hconsumed]
          exact List.mem_append_left _ hk
        · refine .inr ⟨hloose.running, hloose.placed.mono (fun k hk => ?_) ?_, hloose.start, hloose.routing⟩
          · rw [hconsumed]
            exact List.mem_append_left _ hk
          · rw [hconsumed, List.mem_append, not_or]
            exact ⟨hloose.placed.free, loose_kept htokens hplace (hfresh d hd hloose.start) hloose.placed⟩
      · exact placed_held htokens hplace hconsumed (hclear.phrase c hplaced)
    · exact List.forall_mem_append.mpr ⟨h.unrouted, List.forall_mem_singleton.mpr hunrouted⟩
    · refine List.pairwise_append.mpr ⟨h.disjoint, List.pairwise_singleton _ _, fun d hd e he => ?_⟩
      obtain rfl := List.mem_singleton.mp he
      refine placed_disjoint htokens hplace (hfresh d hd) (h.held d hd) hunrouted (fun hsame => ?_) (h.unrouted d hd)
      have hfilled := h.booked.filled d hd
      rw [hsame, hslot, hempty] at hfilled
      exact Bool.false_ne_true hfilled

lemma Filling.SecondPass.separate (h : st.SecondPass frame tokens verbTok world) (htokens : Numbered tokens) :
    st.Separate world frame tokens verbTok := by
  refine ⟨h.disjoint, h.unrouted, fun t ht d hd hk => ?_⟩
  obtain ⟨hbody, hopen⟩ := List.mem_filter.mp ht
  obtain ⟨hmem, -, -⟩ := (mem_body htokens).mp hbody
  simp only [Bool.and_eq_true, Bool.not_eq_true', decide_eq_true_eq] at hopen
  obtain ⟨⟨hunused, hword⟩, hplain⟩ := hopen
  obtain hheld | hloose := h.held d hd
  · exact hunused (h.booked.used _ (hheld.eaten _ hk))
  · exact Bool.false_ne_true (hplain.symm.trans (hloose.routing t hmem hk hword))

end SecondPass

section Backwards

variable {U : Engine} {frame : OpFrame} {tokens : List Token} {verbTok k : ℕ} {world : WorldModel}
  {contextOverride : Option ContextRef} {st : Filling} {fs : FrameSlot} {c d : Claim} {start t : Token}

lemma foldl_extends {step : Filling → FrameSlot → Filling} (hstep : ∀ st fs, st.claims <+: (step st fs).claims) (st : Filling)
    (l : List FrameSlot) : st.claims <+: (l.foldl step st).claims := by
  induction l generalizing st with
  | nil => exact List.prefix_rfl
  | cons fs rest ih => exact (hstep st fs).trans (ih (step st fs))

section Extends

variable (U : Engine) (frame : OpFrame) (tokens : List Token) (verbTok : ℕ) (world : WorldModel)
  (contextOverride : Option ContextRef)

lemma routes_extend (st : Filling) (l : List FrameSlot) :
    st.claims <+: (l.foldl (routeSlot U tokens verbTok world contextOverride) st).claims := by
  refine foldl_extends (fun st fs => ?_) st l
  cases hrouted : routedStart tokens verbTok st fs with
  | some p =>
    rw [routeSlot_routed hrouted]
    exact List.prefix_append _ _
  | none => rw [(routeSlot_idle U world contextOverride hrouted).1.claims]

lemma places_extend (st : Filling) (l : List FrameSlot) :
    st.claims <+: (l.foldl (placeSlot U frame tokens verbTok world contextOverride) st).claims := by
  refine foldl_extends (fun st fs => ?_) st l
  cases hplaced : placedClaim frame tokens verbTok st fs with
  | some c =>
    rw [(placed_consumed U world contextOverride hplaced).2]
    exact List.prefix_append _ _
  | none => rw [(placeSlot_idle U world contextOverride hplaced).1.claims]

end Extends

/-- Whatever is consumed is a word that some slot's value is made from, or one of a run that is consumed as a whole. -/
def Filling.Traced (tokens : List Token) (verbTok : ℕ) (world : WorldModel) (st : Filling) : Prop :=
  ∀ k ∈ st.consumedAll, ∃ d ∈ st.claims, k ∈ d.sources world ∨
    d.Running tokens verbTok ∧ d.start.kind ≠ .arrow ∧ k ∈ d.mention.consumed ∧
      ∀ j ∈ d.mention.consumed, j ∈ st.consumedAll

lemma Filling.Traced.extend {st' : Filling} {marks : List ℕ} (h : st.Traced tokens verbTok world)
    (hclaims : st'.claims = st.claims ++ [c]) (hconsumed : st'.consumedAll = st.consumedAll ++ marks)
    (hmarks : ∀ k ∈ marks, k ∈ c.sources world ∨ c.Running tokens verbTok ∧ c.start.kind ≠ .arrow ∧
      k ∈ c.mention.consumed ∧ ∀ j ∈ c.mention.consumed, j ∈ st'.consumedAll) : st'.Traced tokens verbTok world := by
  intro k hk
  rw [hclaims]
  rw [hconsumed] at hk
  obtain hold | hnew := List.mem_append.mp hk
  · obtain ⟨d, hd, hsource | ⟨hrunning, hspoken, hmem, hall⟩⟩ := h k hold
    · exact ⟨d, List.mem_append_left _ hd, .inl hsource⟩
    · refine ⟨d, List.mem_append_left _ hd, .inr ⟨hrunning, hspoken, hmem, fun j hj => ?_⟩⟩
      rw [hconsumed]
      exact List.mem_append_left _ (hall j hj)
  · exact ⟨c, List.mem_append_right _ (List.mem_singleton.mpr rfl), hmarks k hnew⟩

lemma traced_route (htokens : Numbered tokens) (h : st.Traced tokens verbTok world) :
    (routeSlot U tokens verbTok world contextOverride st fs).Traced tokens verbTok world := by
  cases hrouted : routedStart tokens verbTok st fs with
  | none =>
    obtain ⟨hidle, -⟩ := routeSlot_idle U world contextOverride hrouted
    unfold Filling.Traced
    rw [hidle.claims, hidle.consumed]
    exact h
  | some p =>
    obtain ⟨prep, start⟩ := p
    have hstart := routedStart_spec htokens hrouted
    have hrunning := routed_running hstart
    have hconsumed := (hrunning.mentioned htokens hstart.spoken).2
    have hfirst : start.i ∈ (mentionAfter tokens start.i).consumed := by
      change _ = _ at hconsumed
      rw [hconsumed]
      exact List.mem_map_of_mem List.mem_cons_self
    rw [routeSlot_routed hrouted]
    refine h.extend rfl (List.append_assoc _ _ _) fun k hk => .inr ⟨hrunning, hstart.spoken, ?_, fun j hj => ?_⟩
    · obtain hmention | htaken := List.mem_append.mp hk
      · exact hmention
      · rw [fill_consumed] at htaken
        obtain hone | hmention := mem_taken htaken
        · rw [hone]
          exact hfirst
        · exact hmention
    · exact List.mem_append_left _ (List.mem_append_right _ hj)

lemma traced_place (htokens : Numbered tokens) (h : st.Traced tokens verbTok world) :
    (placeSlot U frame tokens verbTok world contextOverride st fs).Traced tokens verbTok world := by
  cases hplaced : placedClaim frame tokens verbTok st fs with
  | none =>
    obtain ⟨hidle, -⟩ := placeSlot_idle U world contextOverride hplaced
    unfold Filling.Traced
    rw [hidle.claims, hidle.consumed]
    exact h
  | some c =>
    obtain ⟨hconsumed, hclaims⟩ := placed_consumed U world contextOverride hplaced
    refine h.extend hclaims hconsumed fun k hk => ?_
    cases placedClaim_cases world hplaced with
    | hit hwhole hstart hfree hword hsources hmentioned heats =>
      rw [hsources, List.mem_singleton]
      exact .inl ((heats k).mp hk)
    | single hcontext hstart hsources heats =>
      rw [hsources, List.mem_singleton]
      exact .inl ((heats k).mp hk)
    | all hwhole hfree heats => exact .inl ((heats k).mp hk)
    | run hstart hrunning hplain heats =>
      rw [heats] at hk hconsumed
      split_ifs at hk hconsumed with hentity
      · exact absurd hk List.not_mem_nil
      · obtain ⟨hmem, -, -⟩ := (mem_body htokens).mp hrunning.start
        refine .inr ⟨hrunning, fun harrow => ?_, hk, fun j hj => ?_⟩
        · rw [hrunning.mention, mentionAfter_arrow htokens hmem harrow] at hk
          exact absurd hk List.not_mem_nil
        · rw [hconsumed]
          exact List.mem_append_right _ hj

/-- With nothing shared, no word of a phrase is consumed before it. -/
lemma phrase_free (htokens : Numbered tokens) (htraced : st.Traced tokens verbTok world) (hc : c.Running tokens verbTok)
    (hplaced : PlacedFrom frame tokens verbTok st c.start)
    (hdisjoint : ∀ d ∈ st.claims, List.Disjoint (d.sources world) (c.sources world)) (hk : k ∈ c.sources world) :
    k ∉ st.consumedAll := by
  intro hconsumed
  obtain ⟨d, hd, hsource | ⟨hrunning, hspoken, hmem, hall⟩⟩ := htraced k hconsumed
  · exact hdisjoint d hd hsource hk
  · have hruns := (hrunning.mentioned htokens hspoken).2
    obtain ⟨hcmem, -, -⟩ := (mem_body htokens).mp hc.start
    obtain ⟨hdmem, -, hsemantic⟩ := (mem_body htokens).mp hrunning.start
    rw [hruns] at hmem
    obtain ⟨u, hu, rfl⟩ := List.mem_map.mp hmem
    obtain hlt | hge := Nat.lt_or_ge c.start.i d.start.i
    · have hle := ((mem_run htokens hdmem).mp hu).2.1
      have hshared := hc.between htokens hk hrunning.start hlt.le hle
      refine hdisjoint d hd ?_ hshared
      obtain hone | ⟨-, harrow⟩ | ⟨-, hspeech⟩ := hrunning.sources htokens world
      · rw [hone]
        exact List.mem_singleton.mpr rfl
      · exact absurd harrow hspoken
      · rw [hspeech]
        exact List.mem_map_of_mem (start_mem_speech hsemantic)
    · refine hplaced.free (hall _ ?_)
      rw [hruns]
      exact List.mem_map_of_mem (run_meets htokens hdmem hcmem hge hu (hc.start_le htokens hk))

/-- A later claim that shares no word with a phrase consumes none of it, as a run would have to begin with it. -/
lemma phrase_left (htokens : Numbered tokens) (hplace : Placement frame tokens verbTok world st d)
    (hplaced : PlacedFrom frame tokens verbTok st c.start) (hfirst : c.start.i ∈ c.sources world)
    (hspoken : c.start.kind ≠ .arrow) (hdisjoint : List.Disjoint (c.sources world) (d.sources world))
    (hk : k ∈ c.sources world) : k ∉ d.eats := by
  cases hplace with
  | hit hwhole hstart hfree hword hsources hmentioned heats =>
    rw [heats]
    rintro rfl
    refine hdisjoint hk ?_
    rw [hsources]
    exact List.mem_singleton.mpr rfl
  | single hcontext hstart hsources heats =>
    rw [heats]
    rintro rfl
    refine hdisjoint hk ?_
    rw [hsources]
    exact List.mem_singleton.mpr rfl
  | all hwhole hfree heats =>
    rw [heats]
    exact fun hd => hdisjoint hk hd
  | run hstart hrunning hplain heats =>
    have hfrom := placedStart_spec htokens hstart
    obtain ⟨hmem, -, hsemantic⟩ := (mem_body htokens).mp hfrom.startMem
    obtain ⟨hcmem, -, -⟩ := (mem_body htokens).mp hplaced.startMem
    have heq : d.start.i = c.start.i :=
      le_antisymm (hfrom.first _ hplaced.startMem hplaced.free hplaced.open_)
        (hplaced.first _ hfrom.startMem hfrom.free hfrom.open_)
    have hsame := htokens.inj hmem hcmem heq
    refine absurd ?_ fun hshared => hdisjoint hfirst hshared
    rw [← heq]
    obtain hone | ⟨-, harrow⟩ | ⟨-, hall⟩ := hrunning.sources htokens world
    · rw [hone]
      exact List.mem_singleton.mpr rfl
    · exact absurd (hsame ▸ harrow) hspoken
    · rw [hall]
      exact List.mem_map_of_mem (start_mem_speech hsemantic)

/-- A phrase that the rest of the slots share no word with stays as it is left. -/
lemma phrase_kept (U : Engine) (contextOverride : Option ContextRef) (htokens : Numbered tokens) (hfirst : c.start.i ∈ c.sources world) (hspoken : c.start.kind ≠ .arrow)
    (hk : k ∈ c.sources world) (l : List FrameSlot) (hc : c ∈ st.claims)
    (hplaced : PlacedFrom frame tokens verbTok st c.start) (hfree : k ∉ st.consumedAll)
    (hpairwise : (l.foldl (placeSlot U frame tokens verbTok world contextOverride) st).claims.Pairwise
      fun c d => List.Disjoint (c.sources world) (d.sources world)) :
    k ∉ (l.foldl (placeSlot U frame tokens verbTok world contextOverride) st).consumedAll := by
  induction l generalizing st with
  | nil => exact hfree
  | cons fs rest ih =>
    cases hnext : placedClaim frame tokens verbTok st fs with
    | none =>
      obtain ⟨hidle, -⟩ := placeSlot_idle U world contextOverride hnext
      refine ih ?_ (hplaced.mono (fun j hj => ?_) ?_) ?_ hpairwise
      · rwa [hidle.claims]
      · rwa [hidle.consumed]
      · rw [hidle.consumed]
        exact hplaced.free
      · rwa [hidle.consumed]
    | some d =>
      obtain ⟨hconsumed, hclaims⟩ := placed_consumed U world contextOverride hnext
      have hdisjoint : List.Disjoint (c.sources world) (d.sources world) := by
        obtain ⟨more, hmore⟩ := places_extend U frame tokens verbTok world contextOverride
          (placeSlot U frame tokens verbTok world contextOverride st fs) rest
        change List.Pairwise _ (List.foldl _ (placeSlot U frame tokens verbTok world contextOverride st fs) rest).claims
          at hpairwise
        rw [← hmore, hclaims, List.append_assoc] at hpairwise
        exact (List.pairwise_append.mp hpairwise).2.2 c hc d List.mem_cons_self
      have hleft {j : ℕ} (hj : j ∈ c.sources world) : j ∉ d.eats :=
        phrase_left htokens (placedClaim_cases world hnext) hplaced hfirst hspoken hdisjoint hj
      refine ih ?_ (hplaced.mono (fun j hj => ?_) ?_) ?_ hpairwise
      · rw [hclaims]
        exact List.mem_append_left _ hc
      · rw [hconsumed]
        exact List.mem_append_left _ hj
      · rw [hconsumed, List.mem_append, not_or]
        exact ⟨hplaced.free, hleft hfirst⟩
      · rw [hconsumed, List.mem_append, not_or]
        exact ⟨hfree, hleft hk⟩

end Backwards

section Theorem

variable {U : Engine} {frame : OpFrame} {tokens : List Token} {verbTok k : ℕ} {world : WorldModel}
  {contextOverride : Option ContextRef} {st : Filling} {fs : FrameSlot} {c d : Claim} {start t : Token}

variable (U frame tokens verbTok world contextOverride) in
/-- What `fillSlots` does slot by slot stays clear of what other slots are filled from. -/
structure Clear : Prop where
  routes : Along (routeSlot U tokens verbTok world contextOverride) (RouteClear frame tokens verbTok)
    { usedTokens := [verbTok] } frame.slots
  places : Along (placeSlot U frame tokens verbTok world contextOverride) (PlaceClear frame tokens verbTok world)
    (frame.slots.foldl (routeSlot U tokens verbTok world contextOverride) { usedTokens := [verbTok] }) frame.slots

lemma booked_start : Filling.Booked frame tokens verbTok { usedTokens := [verbTok] } :=
  ⟨fun _ hk => absurd hk List.not_mem_nil, fun _ hk => .inl (List.mem_singleton.mp hk),
    fun _ hd => absurd hd List.not_mem_nil⟩

lemma booked_routes (U : Engine) (world : WorldModel) (contextOverride : Option ContextRef) (htokens : Numbered tokens) :
    (frame.slots.foldl (routeSlot U tokens verbTok world contextOverride) { usedTokens := [verbTok] }).Booked frame tokens
      verbTok := by
  let Kept (st : Filling) : Prop := st.Booked frame tokens verbTok
  exact List.foldlRecOn (motive := Kept) frame.slots _ booked_start fun st h fs hfs => booked_route htokens hfs h

lemma firstPass_routes (htokens : Numbered tokens) (l : List FrameSlot) (hroles : (l.map FrameSlot.role).Nodup)
    (hknown : ∀ fs ∈ l, fs ∈ frame.slots) (h : st.FirstPass frame tokens verbTok world l)
    (hclear : Along (routeSlot U tokens verbTok world contextOverride) (RouteClear frame tokens verbTok) st l) :
    (l.foldl (routeSlot U tokens verbTok world contextOverride) st).FirstPass frame tokens verbTok world [] := by
  induction l generalizing st with
  | nil => exact h
  | cons fs rest ih =>
    obtain ⟨hfs, hrest⟩ := List.nodup_cons.mp hroles
    obtain ⟨hfirst, hclear⟩ := hclear
    refine ih hrest (fun other hother => hknown other (List.mem_cons_of_mem _ hother)) ?_ hclear
    refine firstPass_route htokens (hknown fs List.mem_cons_self) (fun other hother hsame => hfs ?_) h hfirst
    rw [hsame]
    exact List.mem_map_of_mem hother

lemma speech_semantic (htokens : Numbered tokens) (hstart : start ∈ bodyTokens tokens (verbTok + 1)) (ht : t ∈ speech tokens start)
    (hword : t.kind = .word) : t ∈ bodyTokens tokens (verbTok + 1) := by
  obtain ⟨hmem, hlt, -⟩ := (mem_body htokens).mp hstart
  obtain ⟨hrun, hstop⟩ := List.mem_filter.mp ht
  obtain ⟨htmem, hle, hcut⟩ := (mem_run htokens hmem).mp hrun
  obtain heq | hbehind := Nat.eq_or_lt_of_le hle
  · rwa [← htokens.inj hmem htmem heq]
  · refine (mem_body htokens).mpr ⟨htmem, hlt.trans hbehind, ?_⟩
    have hplain := hcut t htmem hbehind le_rfl
    unfold isCut at hplain
    unfold isStop at hstop
    unfold isSemantic
    simp_all

/-- With nothing shared nor listed as unknown, an entity slot's phrase holds no plain word. -/
lemma phrase_routes (htokens : Numbered tokens) (hbooked : st.Booked frame tokens verbTok)
    (htraced : st.Traced tokens verbTok world) (hplaced : placedClaim frame tokens verbTok st fs = some c)
    (l : List FrameSlot) (hseparate : (l.foldl (placeSlot U frame tokens verbTok world contextOverride)
      (placeSlot U frame tokens verbTok world contextOverride st fs)).Separate world frame tokens verbTok)
    (hasIs : c.asIs = false) (hentity : c.slot.kind = .entity) (hcontext : isContextStart c.start = false)
    (ht : t ∈ tokens) (hk : t.i ∈ c.sources world) (hword : t.kind = .word) : isBoundary t frame = true := by
  by_contra hplain
  cases placedClaim_cases world hplaced with
  | hit hwhole => exact Bool.false_ne_true (hasIs.symm.trans hwhole)
  | single hstart => exact Bool.false_ne_true (hcontext.symm.trans hstart)
  | all hwhole => exact Bool.false_ne_true (hasIs.symm.trans hwhole)
  | run hstart hrunning hphrase heats =>
    rw [if_pos hentity] at heats
    have hfrom := placedStart_spec htokens hstart
    have hspoken : c.start.kind ≠ .arrow :=
      fun harrow => nomatch hword.symm.trans (hrunning.arrow_source htokens harrow ht hk)
    obtain ⟨hconsumed, hclaims⟩ := placed_consumed U world contextOverride hplaced
    rw [heats, List.append_nil] at hconsumed
    obtain ⟨more, hmore⟩ := places_extend U frame tokens verbTok world contextOverride
      (placeSlot U frame tokens verbTok world contextOverride st fs) l
    have hmem : c ∈ (placeSlot U frame tokens verbTok world contextOverride st fs).claims := by
      rw [hclaims]
      exact List.mem_append_right _ (List.mem_singleton.mpr rfl)
    have hdisjoint : ∀ d ∈ st.claims, List.Disjoint (d.sources world) (c.sources world) := by
      have hpairwise := hseparate.disjoint
      rw [← hmore, hclaims, List.append_assoc] at hpairwise
      exact fun d hd => (List.pairwise_append.mp hpairwise).2.2 d hd c List.mem_cons_self
    have hfree := phrase_free htokens htraced hrunning hfrom hdisjoint hk
    have hleft := phrase_kept U contextOverride htokens (hrunning.start_mem htokens hk) hspoken
      hk l hmem (hfrom.mono (fun j hj => by rwa [hconsumed]) (by rw [hconsumed]; exact hfrom.free))
      (by rwa [hconsumed]) hseparate.disjoint
    let Kept (st : Filling) : Prop := st.Booked frame tokens verbTok
    have hend := foldl_invariant (I := Kept) (fun st fs h => booked_place U world contextOverride fs h) l
      (booked_place U world contextOverride fs hbooked)
    obtain ⟨u, hu, hsame⟩ := hrunning.sources_speech htokens hspoken hk
    obtain ⟨hstartMem, -, -⟩ := (mem_body htokens).mp hrunning.start
    obtain rfl := htokens.inj ((mem_run htokens hstartMem).mp (List.mem_filter.mp hu).1).1 ht hsame
    have hbody := speech_semantic htokens hrunning.start hu hword
    refine hseparate.unknown u (List.mem_filter.mpr ⟨hbody, ?_⟩) c (hmore ▸ List.mem_append_left _ hmem) hk
    have hunused : u.i ∉ (l.foldl (placeSlot U frame tokens verbTok world contextOverride)
        (placeSlot U frame tokens verbTok world contextOverride st fs)).usedTokens := by
      intro hused
      obtain hverb | ⟨v, hv, hi, hboundary⟩ | heaten := hend.spare _ hused
      · have hlt := ((mem_body htokens).mp hbody).2.1
        omega
      · rw [htokens.inj ((mem_body htokens).mp hv).1 ht hi] at hboundary
        exact hplain hboundary
      · exact hleft heaten
    simp [hunused, hword, hplain]

/-- The slots of a frame share and swallow no word exactly if every step is clear of the others. -/
theorem separate_iff (htokens : Numbered tokens) (hroles : (frame.slots.map FrameSlot.role).Nodup) :
    (fillSlots U frame tokens verbTok world contextOverride).Separate world frame tokens verbTok ↔
      Clear U frame tokens verbTok world contextOverride := by
  constructor
  · intro hseparate
    let Kept (st : Filling) : Prop := st.Booked frame tokens verbTok ∧ st.Traced tokens verbTok world
    let Good (st : Filling) : Prop := st.Separate world frame tokens verbTok
    constructor
    · let Routed (st : Filling) : Prop :=
        (frame.slots.foldl (placeSlot U frame tokens verbTok world contextOverride) st).Separate world frame tokens verbTok
      refine along_of_end (I := fun _ => True) (P := Routed) (fun _ _ => id) (fun st fs rest _ hend prep start hrouted => ?_)
        frame.slots trivial hseparate
      have hstart := routedStart_spec htokens hrouted
      refine (routed_unrouted htokens hstart).mp (hend.unrouted _ ?_)
      refine (places_extend U frame tokens verbTok world contextOverride _ _).subset ?_
      refine (routes_extend U tokens verbTok world contextOverride _ rest).subset ?_
      rw [routeSlot_routed hrouted]
      exact List.mem_append_right _ (List.mem_singleton.mpr rfl)
    · refine along_of_end (I := Kept) (P := Good)
        (fun st fs h => ⟨booked_place U world contextOverride fs h.1, traced_place htokens h.2⟩)
        (fun st fs rest h hend => ?_) frame.slots ⟨booked_routes U world contextOverride htokens, ?_⟩ hseparate
      · have hlast {c : Claim} (hplaced : placedClaim frame tokens verbTok st fs = some c) : ∃ more,
            (rest.foldl (placeSlot U frame tokens verbTok world contextOverride)
              (placeSlot U frame tokens verbTok world contextOverride st fs)).claims = st.claims ++ c :: more := by
          obtain ⟨more, hmore⟩ := places_extend U frame tokens verbTok world contextOverride
            (placeSlot U frame tokens verbTok world contextOverride st fs) rest
          rw [(placed_consumed U world contextOverride hplaced).2, List.append_assoc] at hmore
          exact ⟨more, hmore.symm⟩
        refine ⟨fun c hplaced => ?_, fun c hplaced d hd hfirst hshared => ?_, fun c hplaced hasIs hentity hcontext t ht => ?_⟩
        · obtain ⟨more, hmore⟩ := hlast hplaced
          refine hend.unrouted c ?_
          rw [hmore]
          exact List.mem_append_right _ List.mem_cons_self
        · obtain ⟨more, hmore⟩ := hlast hplaced
          have hpairwise := hend.disjoint
          rw [hmore] at hpairwise
          exact (List.pairwise_append.mp hpairwise).2.2 d hd c List.mem_cons_self hfirst hshared
        · exact fun hk hword => phrase_routes htokens h.1 h.2 hplaced rest hend hasIs hentity hcontext ht hk hword
      · let Traced (st : Filling) : Prop := st.Traced tokens verbTok world
        exact foldl_invariant (I := Traced) (fun st fs h => traced_route htokens h) frame.slots
          fun _ hk => absurd hk List.not_mem_nil
  · rintro ⟨hroutes, hplaces⟩
    have hfirst : Filling.FirstPass frame tokens verbTok world { usedTokens := [verbTok] } frame.slots :=
      ⟨fun _ hd => absurd hd List.not_mem_nil, fun _ hd => absurd hd List.not_mem_nil,
        fun _ hd => absurd hd List.not_mem_nil, List.Pairwise.nil⟩
    have hrouted := firstPass_routes htokens frame.slots hroles (fun _ => id) hfirst hroutes
    have hsecond := hrouted.second htokens (booked_routes U world contextOverride htokens)
    let Kept (st : Filling) (_ : List FrameSlot) : Prop := st.SecondPass frame tokens verbTok world
    have hend := Along.invariant (I := Kept) (fun st fs rest h hclear => secondPass_place htokens h hclear) hplaces hsecond
    exact hend.separate htokens

def plainTokens (input : String) : List Token := (lex ascii (ofText input)).tokens

theorem separate_iff_send :
    (fillSlots plainEngine messageSend (plainTokens "send hello, to Peter") 0 emptyWorld none).Separate emptyWorld messageSend
      (plainTokens "send hello, to Peter") 0 ↔
        Clear plainEngine messageSend (plainTokens "send hello, to Peter") 0 emptyWorld none :=
  separate_iff (numbered_lex ascii _) (by decide)

/-- The addressee's mention runs on over the word that routes the subject. -/
theorem addressee_swallows :
    ¬ (fillSlots plainEngine messageSend (plainTokens "send hello to Peter about lunch") 0 emptyWorld none).Separate
      emptyWorld messageSend (plainTokens "send hello to Peter about lunch") 0 := by
  intro h
  have hswallowed : ∃ c ∈ (fillSlots plainEngine messageSend (plainTokens "send hello to Peter about lunch") 0 emptyWorld
      none).claims, ∃ t ∈ plainTokens "send hello to Peter about lunch", t.i ∈ c.mention.mentioned ∧
        ∃ other ∈ messageSend.slots, other.role ≠ c.slot.role ∧ isPrepToken t other = true := by
    decide +kernel
  obtain ⟨c, hc, t, ht, hmem, hroutes⟩ := hswallowed
  exact h.unrouted c hc t ht hmem hroutes

end Theorem

end VivimOmega.Nlcl

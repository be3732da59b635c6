import VivimOmega.Library.Json.Parsed
import VivimOmega.Nlcl.Proposals

/-! What the slots of a frame are filled with, and when that leaves nothing open. -/

namespace VivimOmega.Nlcl

open Library Library.Json

section Executable

def isTied (found : List EntityMatch) : Bool := (GroundResult.mk found).ambiguous

def requiredSlots (slots : List FrameSlot) : List JsString := (slots.filter FrameSlot.required).filterMap FrameSlot.payloadKey

def requiredKeys (intent : JsString) : List JsString :=
  (DEFAULT_FRAMES.filter (·.op = intent)).flatMap fun f => requiredSlots f.slots

def valueAt (payload : List (JsString × Value)) (key : JsString) : Value :=
  ((payload.find? fun m => m.1 = key).map Prod.snd).getD .undefined

def isNull : Value → Bool
  | .null => true
  | _ => false

/-- What the payload of a recognizer's intent names. -/
def namedValues (payload : List (JsString × Value)) : List Value :=
  [lookup payload "op", lookup payload "ruleId", optionalProperty (lookup payload "then") "op"]

structure IR.Complete (ir : IR) : Prop where
  slots : ∀ s ∈ ir.slots.values, isTied s.found = false
  required : ∀ key ∈ requiredKeys ir.intent, isNullish (valueAt ir.payload key) = false
  named : ∀ v ∈ namedValues ir.payload, isNull v = false

/-- An interpretation that is ok has no gap of a kind that something is left open by, and all of its values. -/
def Interpretation.Executable (i : Interpretation) : Prop :=
  i.status = .ok → (∀ g ∈ i.gaps, g.kind = .malformed) ∧ ∀ ir ∈ i.ir, ir.Complete

end Executable

section Resolving

variable (U : Engine) (world : WorldModel)

/-- A slot is resolved by a word that points at something, a reference or a phrase that the world knows, or a value of its
enumeration; an empty phrase only leaves an optional slot empty. -/
def Claim.Resolved (c : Claim) : Prop :=
  let spoken := c.mention.quote.getD c.mention.text
  c.asIs = true ∨
    match c.slot.kind with
    | .entity =>
      if isWordOrRef c.start ∧ c.start.norm ∈ CONTEXT_REF_WORDS then
        (resolveContext U c.start.norm world c.slot.entityTypes).isSome = true
      else if c.start.kind = .ref then
        (∃ e ∈ world.entities, e.id = ofText "contact:" ++ c.start.norm ∨ e.id = ofText "message:" ++ c.start.norm ∨
          (ofText ":" ++ c.start.norm).isSuffixOf e.id) ∨
          (ground U c.start.norm world.entities c.slot.entityTypes).found ≠ []
      else if spoken = [] then c.slot.required = false ∨ c.slot.payloadKey = none
      else (groundPhrase U spoken world.entities c.slot.entityTypes).found ≠ []
    | .content =>
      c.mention.quote = none → isWordOrRef c.start = true → c.start.norm ∈ contentRefWords →
        (resolveContext U c.start.norm world none).isSome
    | .enum => fold U.toUnicode spoken ∈ c.slot.enumValues
    | .text => True
    | .rest => True

def contactKnown (phrase : JsString) : Prop :=
  isAnyone U phrase = true ∨ (senderGrounding U phrase world).found ≠ []

def phraseKnown (phrase : JsString) : Prop :=
  (groundPhrase U phrase world.entities none).found ≠ [] ∧ (groundPhrase U phrase world.entities none).ambiguous = false

end Resolving

section Fills

variable {U : Engine} {world : WorldModel}

lemma entityPayloadValue_present (e : EntityView) : isNullish (entityPayloadValue e) = false := by
  have horElse (v : Value) (s : JsString) : isNullish (orElse v (.string s)) = false := by
    cases v <;> rfl
  unfold entityPayloadValue
  split_ifs
  · exact horElse _ _
  · exact horElse _ _
  · rfl
  · exact horElse _ _

lemma isTied_take (found : List EntityMatch) :
    isTied (if 1 < found.length then found.take 5 else []) = isTied found := by
  match found with
  | [] => rfl
  | [_] => rfl
  | first :: second :: rest =>
    rw [if_pos (by simp)]
    rfl

/-- What a filled slot owes: no gap and a value where one is needed. -/
structure SlotFill.Settles (f : SlotFill) (needed : Prop) : Prop where
  gaps : f.gaps = []
  value : needed → isNullish f.slot.value = false

/-- A fill that nothing is wrong with, unless it is flagged. -/
structure SlotFill.Sane (f : SlotFill) : Prop where
  kinds : ∀ g ∈ f.gaps, g.kind ≠ .malformed
  tied : f.ambiguityFlagged = false → isTied f.slot.found = false
  anonymous : isNullish f.slot.value = true → f.slot.entityId = none

variable {needed : Prop} {token0 : Token} {mention : Mention} {fs : FrameSlot} {g : GroundResult} {p : EntityMatch}

lemma SlotFill.Settles.of_present {f : SlotFill} (hgaps : f.gaps = []) (hvalue : isNullish f.slot.value = false) :
    f.Settles needed :=
  ⟨hgaps, fun _ => hvalue⟩

lemma SlotFill.Sane.of_gapless {f : SlotFill} (hgaps : f.gaps = []) (hfound : f.slot.found = [])
    (hvalue : isNullish f.slot.value = true → f.slot.entityId = none) : f.Sane := by
  refine ⟨?_, fun _ => ?_, hvalue⟩
  · rw [hgaps]
    exact fun g hg => absurd hg List.not_mem_nil
  · rw [hfound]
    rfl

lemma SlotFill.Sane.of_present_gapless {f : SlotFill} (hgaps : f.gaps = []) (hfound : f.slot.found = [])
    (hvalue : isNullish f.slot.value = false) : f.Sane :=
  .of_gapless hgaps hfound fun h => absurd (h.symm.trans hvalue) (Bool.noConfusion ·)

lemma SlotFill.Sane.of_gap {f : SlotFill} {gap : GapNote} (hgaps : f.gaps = [gap]) (hkind : gap.kind ≠ .malformed)
    (hfound : f.slot.found = []) (hvalue : f.slot.entityId = none) : f.Sane := by
  refine ⟨?_, fun _ => ?_, fun _ => hvalue⟩
  · rw [hgaps]
    intro g hg
    rwa [List.mem_singleton.mp hg]
  · rw [hfound]
    rfl

lemma entityFromMatch_settles : (entityFromMatch g p).Settles needed :=
  .of_present rfl (entityPayloadValue_present p.entity)

lemma entityFromMatch_sane : (entityFromMatch g p).Sane :=
  ⟨fun _ hg => absurd hg List.not_mem_nil, fun h => (isTied_take _).trans h,
    fun h => absurd (h.symm.trans (entityPayloadValue_present p.entity)) (Bool.noConfusion ·)⟩

lemma nothingYet_open {consumed : List ℕ} {hint : String} : ¬ (nothingYet token0 consumed hint).Settles needed :=
  fun h => List.cons_ne_nil _ _ h.gaps

lemma nothingYet_sane {consumed : List ℕ} {hint : String} : (nothingYet token0 consumed hint).Sane := .of_gap rfl nofun rfl rfl

lemma contextSlot_spec : ((contextSlot U token0 fs world).Settles needed ↔
      (resolveContext U token0.norm world fs.entityTypes).isSome) ∧ (contextSlot U token0 fs world).Sane := by
  unfold contextSlot
  cases resolveContext U token0.norm world fs.entityTypes with
  | some referent =>
    exact ⟨iff_of_true (.of_present rfl (entityPayloadValue_present referent)) rfl,
      .of_present_gapless rfl rfl (entityPayloadValue_present referent)⟩
  | none => exact ⟨iff_of_false nothingYet_open Bool.false_ne_true, nothingYet_sane⟩

lemma refSlot_spec : ((refSlot U token0 fs world).Settles needed ↔
      (∃ e ∈ world.entities, e.id = ofText "contact:" ++ token0.norm ∨ e.id = ofText "message:" ++ token0.norm ∨
        (ofText ":" ++ token0.norm).isSuffixOf e.id) ∨
      (ground U token0.norm world.entities fs.entityTypes).found ≠ []) ∧ (refSlot U token0 fs world).Sane := by
  unfold refSlot
  dsimp only
  split
  · next e he =>
    have hnamed := List.find?_some he
    refine ⟨iff_of_true (.of_present rfl (entityPayloadValue_present e)) (.inl ⟨e, List.mem_of_find?_eq_some he, ?_⟩),
      .of_present_gapless rfl rfl (entityPayloadValue_present e)⟩
    exact of_decide_eq_true hnamed
  · next hnone =>
    have hunnamed := List.find?_eq_none.mp hnone
    split
    · next p hp =>
      refine ⟨iff_of_true entityFromMatch_settles (.inr fun hnil => ?_), entityFromMatch_sane⟩
      rw [GroundResult.primary, hnil] at hp
      exact nomatch hp
    · next hmissing =>
      refine ⟨iff_of_false (fun h => List.cons_ne_nil _ _ h.gaps) ?_, .of_gap rfl nofun rfl rfl⟩
      rintro (⟨e, he, hnamed⟩ | hfound)
      · exact hunnamed e he (decide_eq_true hnamed)
      · exact hfound (List.head?_eq_none_iff.mp hmissing)

lemma phraseSlot_spec (U : Engine) (world : WorldModel) (needed : Prop) (fs : FrameSlot) (phrase : JsString) : ((phraseSlot U phrase fs world).Settles needed ↔
      if phrase = [] then ¬ needed else (groundPhrase U phrase world.entities fs.entityTypes).found ≠ []) ∧
    (phraseSlot U phrase fs world).Sane := by
  unfold phraseSlot
  split_ifs with hempty
  · exact ⟨⟨fun h hneeded => Bool.noConfusion (h.value hneeded), fun h => ⟨rfl, fun hneeded => absurd hneeded h⟩⟩,
      .of_gapless rfl rfl fun _ => rfl⟩
  · dsimp only
    split
    · next p hp =>
      refine ⟨iff_of_true entityFromMatch_settles fun hnil => ?_, entityFromMatch_sane⟩
      rw [GroundResult.primary, hnil] at hp
      exact nomatch hp
    · next hmissing =>
      exact ⟨iff_of_false (fun h => List.cons_ne_nil _ _ h.gaps) fun hfound => hfound (List.head?_eq_none_iff.mp hmissing),
        .of_gap rfl nofun rfl rfl⟩

lemma literalSlot_settles : (literalSlot token0 mention).Settles needed := .of_present rfl rfl

lemma literalSlot_sane : (literalSlot token0 mention).Sane := .of_present_gapless rfl rfl rfl

lemma enumSlot_spec : ((enumSlot U mention fs).Settles needed ↔
      fold U.toUnicode (mention.quote.getD mention.text) ∈ fs.enumValues) ∧ (enumSlot U mention fs).Sane := by
  unfold enumSlot
  dsimp only
  split_ifs with hvalue
  · exact ⟨iff_of_true (.of_present rfl rfl) hvalue, .of_gapless rfl rfl fun _ => rfl⟩
  · exact ⟨iff_of_false (fun h => List.cons_ne_nil _ _ h.gaps) hvalue, .of_gap rfl nofun rfl rfl⟩

lemma contentSlot_spec : ((contentSlot U token0 mention world none).Settles needed ↔
      (mention.quote = none → isWordOrRef token0 = true → token0.norm ∈ contentRefWords →
        (resolveContext U token0.norm world none).isSome)) ∧ (contentSlot U token0 mention world none).Sane := by
  unfold contentSlot
  split
  · next quote hquote =>
    exact ⟨iff_of_true (.of_present rfl rfl) (fun hnone => nomatch hquote.symm.trans hnone), .of_gapless rfl rfl fun _ => rfl⟩
  · next hquote =>
    split_ifs with hcontext href
    · cases resolveContext U token0.norm world none with
      | some referent => exact ⟨iff_of_true (.of_present rfl rfl) fun _ _ _ => rfl, .of_present_gapless rfl rfl rfl⟩
      | none =>
        refine ⟨iff_of_false nothingYet_open fun h => ?_, nothingYet_sane⟩
        exact Bool.false_ne_true (h hquote hcontext.1 hcontext.2)
    · have hfree : mention.quote = none → isWordOrRef token0 = true → token0.norm ∈ contentRefWords →
          (resolveContext U token0.norm world none).isSome :=
        fun _ hword hnorm => absurd ⟨hword, hnorm⟩ hcontext
      dsimp only
      split
      · exact ⟨iff_of_true (.of_present rfl rfl) hfree, .of_present_gapless rfl rfl rfl⟩
      · exact ⟨iff_of_true literalSlot_settles hfree, literalSlot_sane⟩
    · have hfree : mention.quote = none → isWordOrRef token0 = true → token0.norm ∈ contentRefWords →
          (resolveContext U token0.norm world none).isSome :=
        fun _ hword hnorm => absurd ⟨hword, hnorm⟩ hcontext
      exact ⟨iff_of_true literalSlot_settles hfree, literalSlot_sane⟩

/-- What a slot is filled with owes nothing exactly if the claim is resolved. -/
lemma claim_spec (c : Claim) : ((c.fill U world none).Settles (c.slot.required = true ∧ c.slot.payloadKey ≠ none) ↔
      c.Resolved U world) ∧ (c.fill U world none).Sane := by
  unfold Claim.fill Claim.Resolved
  dsimp only
  by_cases hasIs : c.asIs = true
  · rw [if_pos hasIs]
    by_cases hkind : c.slot.kind = .enum
    · rw [if_pos hkind]
      exact ⟨iff_of_true (.of_present rfl rfl) (.inl hasIs), .of_gapless rfl rfl fun _ => rfl⟩
    · rw [if_neg hkind]
      exact ⟨iff_of_true (.of_present rfl rfl) (.inl hasIs), .of_gapless rfl rfl fun _ => rfl⟩
  · rw [if_neg hasIs, or_iff_right hasIs]
    unfold fillSlotValue
    cases hkind : c.slot.kind with
    | entity =>
      dsimp only
      unfold makeEntitySlot
      split_ifs with hcontext href hempty
      · exact contextSlot_spec
      · exact refSlot_spec
      · have hspec := phraseSlot_spec U world (c.slot.required = true ∧ c.slot.payloadKey ≠ none) c.slot
          (c.mention.quote.getD c.mention.text)
        rw [if_pos hempty, not_and_or, Bool.not_eq_true, not_not] at hspec
        exact hspec
      · have hspec := phraseSlot_spec U world (c.slot.required = true ∧ c.slot.payloadKey ≠ none) c.slot
          (c.mention.quote.getD c.mention.text)
        rw [if_neg hempty] at hspec
        exact hspec
    | content => exact contentSlot_spec
    | enum => exact enumSlot_spec
    | text => exact ⟨iff_of_true (.of_present rfl rfl) trivial, .of_gapless rfl rfl fun _ => rfl⟩
    | rest => exact ⟨iff_of_true (.of_present rfl rfl) trivial, .of_gapless rfl rfl fun _ => rfl⟩

end Fills

section Steps

variable (U : Engine) (frame : OpFrame) (tokens : List Token) (verbTok : ℕ) (world : WorldModel)
  (contextOverride : Option ContextRef)

/-- The same but for the tokens used and consumed. -/
def Filling.Same (st st' : Filling) : Prop :=
  st' = { st with usedTokens := st'.usedTokens, consumedAll := st'.consumedAll }

lemma routeSlot_cases (st : Filling) (fs : FrameSlot) : ∃ st', st.Same st' ∧
    (routeSlot U tokens verbTok world contextOverride st fs = st' ∨
      (∃ prep, routeSlot U tokens verbTok world contextOverride st fs = st'.needsValue fs prep) ∨
      ∃ c, c.slot = fs ∧
        routeSlot U tokens verbTok world contextOverride st fs = st'.take U world contextOverride c) := by
  unfold routeSlot
  dsimp only
  split_ifs with hpreps
  · exact ⟨st, rfl, .inl rfl⟩
  · split
    · exact ⟨st, rfl, .inl rfl⟩
    · next prep _ =>
      split
      · exact ⟨{ st with usedTokens := st.usedTokens ++ [prep.i] }, rfl, .inr (.inl ⟨prep, rfl⟩)⟩
      · split_ifs
        · exact ⟨{ st with usedTokens := st.usedTokens ++ [prep.i] }, rfl, .inr (.inl ⟨prep, rfl⟩)⟩
        · refine ⟨_, ?_, .inr (.inr ⟨_, rfl, rfl⟩)⟩
          rfl

lemma placeSlot_cases (st : Filling) (fs : FrameSlot) :
    st.slots.has fs.role = true ∧ placeSlot U frame tokens verbTok world contextOverride st fs = st ∨
    st.slots.has fs.role = false ∧
      (placeSlot U frame tokens verbTok world contextOverride st fs = st.miss fs ∨
        ∃ st', st.Same st' ∧ ∃ c, c.slot = fs ∧
          placeSlot U frame tokens verbTok world contextOverride st fs = st'.take U world contextOverride c) := by
  unfold placeSlot
  dsimp only
  split_ifs with hhas henum hrest hrouted
  · exact .inl ⟨hhas, rfl⟩
  all_goals refine .inr ⟨Bool.eq_false_iff.mpr hhas, ?_⟩
  · split
    · refine .inr ⟨_, ?_, _, rfl, rfl⟩
      rfl
    · exact .inl rfl
  · split
    · exact .inl rfl
    · refine .inr ⟨_, ?_, _, rfl, rfl⟩
      rfl
  · exact .inl rfl
  · split
    · exact .inl rfl
    · split_ifs
      · refine .inr ⟨_, ?_, _, rfl, rfl⟩
        rfl
      · exact .inr ⟨st, rfl, _, rfl, rfl⟩

end Steps

section Tracking

variable {U : Engine} {frame : OpFrame} {tokens : List Token} {verbTok : ℕ} {world : WorldModel} {st st' : Filling}
  {fs : FrameSlot} {c : Claim} {slots : List FrameSlot}

def Filling.roles (st : Filling) : List JsString := st.claims.map fun c => c.slot.role

/-- The slots and the gaps are those of the claims. -/
structure Tracked (U : Engine) (world : WorldModel) (st : Filling) : Prop where
  nodup : st.roles.Nodup
  slots : ∀ role, st.slots.get? role =
    (st.claims.find? fun c => c.slot.role = role).map fun c => (c.fill U world none).slot
  gaps : st.gaps = [] ↔ st.bare = [] ∧ ∀ c ∈ st.claims, (c.fill U world none).gaps = []
  kinds : ∀ g ∈ st.gaps, g.kind ≠ .malformed
  flags : st.entityAmbiguous = false → ∀ c ∈ st.claims, (c.fill U world none).ambiguityFlagged = false

lemma Filling.Same.roles_eq (hsame : st.Same st') : st'.roles = st.roles := by rw [hsame]; rfl

lemma Tracked.same (h : Tracked U world st) (hsame : st.Same st') : Tracked U world st' := by
  rw [hsame]
  exact ⟨h.nodup, h.slots, h.gaps, h.kinds, h.flags⟩

lemma Tracked.has_iff (h : Tracked U world st) (role : JsString) : st.slots.has role = true ↔ role ∈ st.roles := by
  rw [OrderedMap.has, h.slots, Option.isSome_map, List.find?_isSome, Filling.roles, List.mem_map]
  simp only [decide_eq_true_eq]

lemma Tracked.get (h : Tracked U world st) (hc : c ∈ st.claims) :
    st.slots.get? c.slot.role = some (c.fill U world none).slot := by
  have hfound : (st.claims.find? fun d => d.slot.role = c.slot.role).isSome := by
    rw [List.find?_isSome]
    exact ⟨c, hc, decide_eq_true rfl⟩
  obtain ⟨d, hd⟩ := Option.isSome_iff_exists.mp hfound
  have hrole := List.find?_some hd
  have hsame : d = c := List.inj_on_of_nodup_map h.nodup (List.mem_of_find?_eq_some hd) hc (of_decide_eq_true hrole)
  rw [h.slots, hd, hsame]
  rfl

lemma Tracked.gapless_iff (h : Tracked U world st) : (∀ g ∈ st.gaps, g.kind = .malformed) ↔
    st.bare = [] ∧ ∀ c ∈ st.claims, (c.fill U world none).gaps = [] := by
  rw [← h.gaps]
  constructor
  · intro hall
    exact List.eq_nil_iff_forall_not_mem.mpr fun g hg => h.kinds g hg (hall g hg)
  · intro hnone
    rw [hnone]
    exact fun g hg => absurd hg List.not_mem_nil

lemma Tracked.needsValue (h : Tracked U world st) (prep : Token) : Tracked U world (st.needsValue fs prep) := by
  refine ⟨h.nodup, h.slots, ?_, ?_, h.flags⟩
  · exact iff_of_false (List.append_ne_nil_of_right_ne_nil _ (List.cons_ne_nil _ _))
      fun hbare => List.append_ne_nil_of_right_ne_nil _ (List.cons_ne_nil _ _) hbare.1
  · intro g hg
    obtain hold | hnew := List.mem_append.mp hg
    · exact h.kinds g hold
    · rw [List.mem_singleton.mp hnew]
      nofun

lemma Tracked.miss (h : Tracked U world st) : Tracked U world (st.miss fs) := by
  unfold Filling.miss
  split_ifs
  · exact ⟨h.nodup, h.slots, h.gaps, h.kinds, h.flags⟩
  · exact h

lemma Tracked.take (h : Tracked U world st) (hfresh : c.slot.role ∉ st.roles) :
    Tracked U world (st.take U world none c) := by
  have hroles : (st.take U world none c).roles = st.roles ++ [c.slot.role] := List.map_append
  refine ⟨?_, fun role => ?_, ?_, ?_, ?_⟩
  · rw [hroles]
    exact List.Nodup.append h.nodup (List.nodup_singleton _) (by simpa using hfresh)
  · change (st.slots.set c.slot.role _).get? role = ((st.claims ++ [c]).find? _).map _
    rw [OrderedMap.get?_set, List.find?_append, h.slots]
    split_ifs with hrole
    · subst hrole
      have hnone : st.claims.find? (fun d => decide (d.slot.role = c.slot.role)) = none := by
        rw [List.find?_eq_none]
        intro d hd hsame
        exact hfresh (List.mem_map.mpr ⟨d, hd, of_decide_eq_true hsame⟩)
      rw [hnone]
      simp
    · have hother : [c].find? (fun d => decide (d.slot.role = role)) = none := by
        simpa using fun heq => hrole heq.symm
      rw [hother, Option.or_none]
  · change st.gaps ++ _ = [] ↔ st.bare = [] ∧ ∀ d ∈ st.claims ++ [c], _
    rw [List.append_eq_nil_iff, h.gaps, List.forall_mem_append, List.forall_mem_singleton, and_assoc]
  · intro g hg
    obtain hold | hnew := List.mem_append.mp hg
    · exact h.kinds g hold
    · exact (claim_spec c).2.kinds g hnew
  · intro hflags d hd
    obtain ⟨hold, hnew⟩ := Bool.or_eq_false_iff.mp hflags
    obtain hd | hd := List.mem_append.mp hd
    · exact h.flags hold d hd
    · rw [List.mem_singleton.mp hd]
      exact hnew

lemma Filling.roles_take : (st.take U world none c).roles = st.roles ++ [c.slot.role] := List.map_append

lemma tracked_route (tokens : List Token) (verbTok : ℕ) (h : Tracked U world st) (hfresh : fs.role ∉ st.roles) :
    Tracked U world (routeSlot U tokens verbTok world none st fs) ∧
      ∀ role ∈ (routeSlot U tokens verbTok world none st fs).roles, role ∈ st.roles ∨ role = fs.role := by
  obtain ⟨st', hsame, hroute | ⟨prep, hroute⟩ | ⟨c, hc, hroute⟩⟩ := routeSlot_cases U tokens verbTok world none st fs
  all_goals rw [hroute]
  · rw [hsame.roles_eq]
    exact ⟨h.same hsame, fun _ => .inl⟩
  · refine ⟨(h.same hsame).needsValue prep, fun role hrole => .inl ?_⟩
    rwa [← hsame.roles_eq]
  · have hnew : c.slot.role ∉ st'.roles := by rwa [hsame.roles_eq, hc]
    refine ⟨(h.same hsame).take hnew, fun role hrole => ?_⟩
    rw [Filling.roles_take, List.mem_append, List.mem_singleton, hsame.roles_eq, hc] at hrole
    exact hrole

lemma tracked_routes (tokens : List Token) (verbTok : ℕ) (h : Tracked U world st) (hnodup : (slots.map FrameSlot.role).Nodup)
    (hfresh : ∀ fs ∈ slots, fs.role ∉ st.roles) :
    Tracked U world (slots.foldl (routeSlot U tokens verbTok world none) st) := by
  induction slots generalizing st with
  | nil => exact h
  | cons fs rest ih =>
    obtain ⟨hfs, hrest⟩ := List.nodup_cons.mp hnodup
    obtain ⟨hnew, hroles⟩ := tracked_route tokens verbTok h (hfresh fs List.mem_cons_self)
    refine ih hnew hrest fun other hother hmem => ?_
    obtain hold | hsame := hroles _ hmem
    · exact hfresh other (List.mem_cons_of_mem _ hother) hold
    · exact hfs (hsame ▸ List.mem_map_of_mem hother)

/-- A slot that the second pass has been at is filled, or missing where it is required. -/
def Covered (st : Filling) (fs : FrameSlot) : Prop :=
  fs.required = true → st.requiredMissing = [] → fs.role ∈ st.roles

lemma tracked_place (frame : OpFrame) (tokens : List Token) (verbTok : ℕ) (fs : FrameSlot) (h : Tracked U world st) :
    Tracked U world (placeSlot U frame tokens verbTok world none st fs) ∧
    Covered (placeSlot U frame tokens verbTok world none st fs) fs ∧
    ∀ other, Covered st other → Covered (placeSlot U frame tokens verbTok world none st fs) other := by
  obtain ⟨hhas, hplace⟩ | ⟨hhas, hplace | ⟨st', hsame, c, hc, hplace⟩⟩ :=
    placeSlot_cases U frame tokens verbTok world none st fs
  all_goals rw [hplace]
  · exact ⟨h, fun _ _ => (h.has_iff _).mp hhas, fun _ => id⟩
  · have hroles : (st.miss fs).roles = st.roles := by
      unfold Filling.miss
      split_ifs <;> rfl
    refine ⟨h.miss, fun hrequired hmissing => ?_, fun other hother hrequired hmissing => ?_⟩
    · rw [Filling.miss, if_pos hrequired] at hmissing
      exact absurd hmissing (List.append_ne_nil_of_right_ne_nil _ (List.cons_ne_nil _ _))
    · rw [hroles]
      refine hother hrequired ?_
      unfold Filling.miss at hmissing
      split_ifs at hmissing
      · exact (List.append_eq_nil_iff.mp hmissing).1
      · exact hmissing
  · have hnew : c.slot.role ∉ st'.roles := by
      rw [hsame.roles_eq, hc, ← h.has_iff, hhas]
      exact Bool.false_ne_true
    have hmissing : (st'.take U world none c).requiredMissing = st.requiredMissing := by
      rw [hsame]
      rfl
    refine ⟨(h.same hsame).take hnew, fun _ _ => ?_, fun other hother hrequired hnone => ?_⟩
    · rw [Filling.roles_take, hc]
      exact List.mem_append_right _ (List.mem_singleton.mpr rfl)
    · rw [Filling.roles_take, hsame.roles_eq]
      exact List.mem_append_left _ (hother hrequired (hmissing ▸ hnone))

lemma tracked_places (frame : OpFrame) (tokens : List Token) (verbTok : ℕ) (slots : List FrameSlot)
    (h : Tracked U world st) :
    Tracked U world (slots.foldl (placeSlot U frame tokens verbTok world none) st) ∧
    (∀ fs ∈ slots, Covered (slots.foldl (placeSlot U frame tokens verbTok world none) st) fs) ∧
    ∀ other, Covered st other → Covered (slots.foldl (placeSlot U frame tokens verbTok world none) st) other := by
  induction slots generalizing st with
  | nil => exact ⟨h, fun _ hfs => absurd hfs List.not_mem_nil, fun _ => id⟩
  | cons fs rest ih =>
    obtain ⟨hnew, hcovered, hkept⟩ := tracked_place frame tokens verbTok fs h
    obtain ⟨htracked, hrest, hold⟩ := ih hnew
    refine ⟨htracked, fun other hother => ?_, fun other hother => hold other (hkept other hother)⟩
    obtain rfl | hother := List.mem_cons.mp hother
    · exact hold _ hcovered
    · exact hrest other hother

lemma tracked_start (U : Engine) (world : WorldModel) (verbTok : ℕ) : Tracked U world { usedTokens := [verbTok] } :=
  ⟨List.nodup_nil, fun _ => rfl, iff_of_true rfl ⟨rfl, fun _ hc => absurd hc List.not_mem_nil⟩,
    fun _ hg => absurd hg List.not_mem_nil, fun _ _ hc => absurd hc List.not_mem_nil⟩

lemma tracked_fillSlots (tokens : List Token) (verbTok : ℕ) (hnodup : (frame.slots.map FrameSlot.role).Nodup) :
    Tracked U world (fillSlots U frame tokens verbTok world none) ∧
      ∀ fs ∈ frame.slots, Covered (fillSlots U frame tokens verbTok world none) fs := by
  have hrouted := tracked_routes tokens verbTok (tracked_start U world verbTok) hnodup
    fun _ _ => List.not_mem_nil
  obtain ⟨htracked, hcovered, -⟩ := tracked_places frame tokens verbTok frame.slots hrouted
  exact ⟨htracked, hcovered⟩

lemma claims_fillSlots (U : Engine) (frame : OpFrame) (tokens : List Token) (verbTok : ℕ) (world : WorldModel)
    (contextOverride : Option ContextRef) :
    ∀ c ∈ (fillSlots U frame tokens verbTok world contextOverride).claims, c.slot ∈ frame.slots := by
  have htaken {st st' : Filling} {c : Claim} (hsame : st.Same st') (h : ∀ d ∈ st.claims, d.slot ∈ frame.slots)
      (hc : c.slot ∈ frame.slots) : ∀ d ∈ (st'.take U world contextOverride c).claims, d.slot ∈ frame.slots := by
    intro d hd
    rw [hsame] at hd
    obtain hold | hnew := List.mem_append.mp hd
    · exact h d hold
    · rwa [List.mem_singleton.mp hnew]
  let Known (st : Filling) : Prop := ∀ c ∈ st.claims, c.slot ∈ frame.slots
  refine List.foldlRecOn (motive := Known) frame.slots _ ?_ fun st h fs hfs => ?_
  · refine List.foldlRecOn (motive := Known) frame.slots _ (fun c hc => absurd hc List.not_mem_nil) fun st h fs hfs => ?_
    obtain ⟨st', hsame, hroute | ⟨prep, hroute⟩ | ⟨c, rfl, hroute⟩⟩ :=
      routeSlot_cases U tokens verbTok world contextOverride st fs
    · rw [hroute, hsame]
      exact h
    · rw [hroute, hsame]
      exact h
    · rw [hroute]
      exact htaken hsame h hfs
  · obtain ⟨-, hplace⟩ | ⟨-, hplace | ⟨st', hsame, c, rfl, hplace⟩⟩ :=
      placeSlot_cases U frame tokens verbTok world contextOverride st fs
    · rw [hplace]
      exact h
    · rw [hplace, Filling.miss]
      split_ifs <;> exact h
    · rw [hplace]
      exact htaken hsame h hfs

end Tracking

section Payloads

variable {U : Engine} {world : WorldModel} {st : Filling} {fs : FrameSlot} {f : OpFrame} {slots : OrderedMap JsString IRSlot}
  {payload : List (JsString × Value)} {k : JsString} {l : List FrameSlot} {s : IRSlot}

lemma valueAt_assign (payload : List (JsString × Value)) (k k' : JsString) (v : Value) :
    valueAt (assign payload k v) k' = if k' = k then v else valueAt payload k' := by
  unfold valueAt assign
  split_ifs with hmem hkey hkey
  · have hfound : (payload.find? fun m => m.1 = k).isSome := by
      rw [List.find?_isSome]
      obtain ⟨m, hm, hsame⟩ := List.mem_map.mp hmem
      exact ⟨m, hm, decide_eq_true hsame⟩
    obtain ⟨m, hm⟩ := Option.isSome_iff_exists.mp hfound
    have hwritten := OrderedMap.find?_overwrite k k' v payload
    rw [if_pos hkey, hm] at hwritten
    exact congrArg (·.getD .undefined) hwritten
  · have hwritten := OrderedMap.find?_overwrite k k' v payload
    rw [if_neg hkey] at hwritten
    exact congrArg (·.getD .undefined) hwritten
  · subst hkey
    have hnone : payload.find? (fun m => decide (m.1 = k')) = none := by
      rw [List.find?_eq_none]
      exact fun m hm hsame => hmem (of_decide_eq_true hsame ▸ List.mem_map_of_mem hm)
    rw [List.find?_append, hnone]
    simp
  · have hnone : [(k, v)].find? (fun m => decide (m.1 = k')) = none := by
      simpa using fun heq => hkey heq.symm
    rw [List.find?_append, hnone, Option.or_none]

lemma valueAt_slotPayload : valueAt (slotPayload slots payload fs) k =
    match slots.get? fs.role with
    | some s => if fs.payloadKey = some k then orElse s.value .null else valueAt payload k
    | none => valueAt payload k := by
  unfold slotPayload
  cases hslot : slots.get? fs.role with
  | none => rfl
  | some s =>
    cases hkey : fs.payloadKey with
    | none => rfl
    | some key =>
      dsimp only
      rw [valueAt_assign]
      refine if_congr ?_ rfl rfl
      rw [Option.some.injEq]
      exact eq_comm

lemma valueAt_untouched (h : ∀ fs ∈ l, fs.payloadKey ≠ some k) :
    valueAt (l.foldl (slotPayload slots) payload) k = valueAt payload k := by
  induction l generalizing payload with
  | nil => rfl
  | cons fs rest ih =>
    obtain ⟨hfs, hrest⟩ := List.forall_mem_cons.mp h
    rw [List.foldl_cons, ih hrest, valueAt_slotPayload]
    split
    · exact if_neg hfs
    · rfl

lemma valueAt_filled (hnodup : (l.filterMap FrameSlot.payloadKey).Nodup) (hfs : fs ∈ l) (hkey : fs.payloadKey = some k)
    (hslot : slots.get? fs.role = some s) :
    valueAt (l.foldl (slotPayload slots) payload) k = orElse s.value .null := by
  induction l generalizing payload with
  | nil => exact absurd hfs List.not_mem_nil
  | cons first rest ih =>
    rw [List.foldl_cons]
    obtain rfl | hlater := List.mem_cons.mp hfs
    · rw [List.filterMap_cons, hkey] at hnodup
      obtain ⟨hother, -⟩ := List.nodup_cons.mp hnodup
      rw [valueAt_untouched fun other hmem hsame => hother (List.mem_filterMap.mpr ⟨other, hmem, hsame⟩),
        valueAt_slotPayload, hslot]
      exact if_pos hkey
    · refine ih ?_ hlater
      exact hnodup.sublist (List.Sublist.filterMap _ (List.sublist_cons_self first rest))

lemma isNullish_orElse (v : Value) : isNullish (orElse v .null) = isNullish v := by
  cases v <;> rfl

def bodyKey : JsString := ofText "body"

def subjectKey : JsString := ofText "subject"

def reservedKeys : List JsString := texts ["op", "ruleId", "then", "subject"]

/-- What the frames of a world have in common. -/
structure Regular (f : OpFrame) : Prop where
  roles : (f.slots.map FrameSlot.role).Nodup
  keys : (f.slots.filterMap FrameSlot.payloadKey).Nodup
  free : ∀ fs ∈ f.slots, ∀ k ∈ texts ["op", "ruleId", "then"], fs.payloadKey ≠ some k
  required : requiredKeys f.op = requiredSlots f.slots
  untitled : subjectKey ∉ requiredSlots f.slots
  message : f.op = ofText "message.send@1" →
    ∃ fs ∈ f.slots, fs.role = ofText "message" ∧ fs.payloadKey = some bodyKey

lemma regular_default : ∀ f ∈ DEFAULT_FRAMES, Regular f := by
  have hroles : ∀ f ∈ DEFAULT_FRAMES, (f.slots.map FrameSlot.role).Nodup := by decide
  have hkeys : ∀ f ∈ DEFAULT_FRAMES, (f.slots.filterMap FrameSlot.payloadKey).Nodup := by decide
  have hfree : ∀ f ∈ DEFAULT_FRAMES, ∀ fs ∈ f.slots, ∀ k ∈ texts ["op", "ruleId", "then"], fs.payloadKey ≠ some k := by
    decide
  have hrequired : ∀ f ∈ DEFAULT_FRAMES, requiredKeys f.op = requiredSlots f.slots := by decide
  have huntitled : ∀ f ∈ DEFAULT_FRAMES, subjectKey ∉ requiredSlots f.slots := by decide
  have hmessage : ∀ f ∈ DEFAULT_FRAMES, f.op = ofText "message.send@1" →
      ∃ fs ∈ f.slots, fs.role = ofText "message" ∧ fs.payloadKey = some bodyKey := by decide
  exact fun f hf => ⟨hroles f hf, hkeys f hf, hfree f hf, hrequired f hf, huntitled f hf, hmessage f hf⟩

lemma regular_framesForWorld (h : f ∈ framesForWorld U world) : Regular f := by
  obtain hdefault | hgeneric := List.mem_append.mp h
  · exact regular_default f (List.mem_filter.mp hdefault).1
  · obtain ⟨op, hkept, rfl⟩ := List.mem_map.mp hgeneric
    have hother : op ∉ DEFAULT_FRAMES.map OpFrame.op := of_decide_eq_true (List.mem_filter.mp hkept).2
    have hnone : DEFAULT_FRAMES.filter (·.op = op) = [] := by
      rw [List.filter_eq_nil_iff]
      intro g hg hsame
      exact hother (of_decide_eq_true hsame ▸ List.mem_map_of_mem hg)
    have hkey : (genericFrame U op).slots = [{ role := ofText "arg", kind := .rest, payloadKey := ofText "arg" }] := rfl
    have hsend : ofText "message.send@1" ∈ DEFAULT_FRAMES.map OpFrame.op := by decide
    refine ⟨List.nodup_singleton _, List.nodup_singleton _, ?_, ?_, List.not_mem_nil, fun hop => ?_⟩
    · rw [hkey]
      decide
    · rw [requiredKeys]
      change (DEFAULT_FRAMES.filter (·.op = op)).flatMap _ = _
      rw [hnone]
      rfl
    · obtain rfl : op = ofText "message.send@1" := hop
      exact absurd hsend hother

lemma lookup_eq (payload : List (JsString × Value)) (key : String) : lookup payload key = valueAt payload (ofText key) := rfl

lemma valueAt_titled (hk : k ≠ subjectKey) : valueAt (titled payload) k = valueAt payload k := by
  unfold titled
  split
  · split_ifs
    · exact (valueAt_assign _ _ _ _).trans (if_neg hk)
    · exact (valueAt_assign _ _ _ _).trans (if_neg hk)
    · rfl
  · rfl

lemma valueAt_forwarded (slot : IRSlot) (hk : k ≠ subjectKey) : valueAt (forwarded slot world payload) k =
    if k = bodyKey then
      (((world.entities.find? fun e => some e.id = slot.entityId).bind (·.textField "body")).map Value.string).getD
        (valueAt payload bodyKey)
    else valueAt payload k := by
  unfold forwarded
  have hcarried (carried : List (JsString × Value)) (s : Value) :
      valueAt (assign carried (ofText "subject") s) k = valueAt carried k :=
    (valueAt_assign _ _ _ _).trans (if_neg hk)
  dsimp only
  by_cases hsubject : isFalsy (lookup (assign payload (ofText "body")
      ((((world.entities.find? fun e => some e.id = slot.entityId).bind (·.textField "body")).map Value.string).getD
        (lookup payload "body"))) "subject") = true
  · rw [if_pos hsubject, hcarried, valueAt_assign]
    rfl
  · rw [if_neg hsubject, valueAt_assign]
    rfl

lemma valueAt_buildPayload (hsubject : k ≠ subjectKey) (hbody : k ≠ bodyKey) :
    valueAt (buildPayload f slots world) k = valueAt (f.slots.foldl (slotPayload slots) []) k := by
  unfold buildPayload
  dsimp only
  split_ifs
  · split
    · split_ifs
      · rw [valueAt_forwarded _ hsubject, if_neg hbody]
      · rw [valueAt_titled hsubject]
    · rw [valueAt_titled hsubject]
  · rfl

lemma own_keys :
    (ofText "op" ∈ texts ["op", "ruleId", "then"] ∧ ofText "op" ≠ subjectKey ∧ ofText "op" ≠ bodyKey) ∧
    (ofText "ruleId" ∈ texts ["op", "ruleId", "then"] ∧ ofText "ruleId" ≠ subjectKey ∧ ofText "ruleId" ≠ bodyKey) ∧
    (ofText "then" ∈ texts ["op", "ruleId", "then"] ∧ ofText "then" ≠ subjectKey ∧ ofText "then" ≠ bodyKey) := by
  decide

lemma named_frame (hregular : Regular f) : ∀ v ∈ namedValues (buildPayload f slots world), isNull v = false := by
  have hfree (key : String) (hkey : ofText key ∈ texts ["op", "ruleId", "then"]) (hsubject : ofText key ≠ subjectKey)
      (hbody : ofText key ≠ bodyKey) : lookup (buildPayload f slots world) key = .undefined := by
    rw [lookup_eq, valueAt_buildPayload hsubject hbody, valueAt_untouched fun fs hfs => hregular.free fs hfs _ hkey]
    rfl
  obtain ⟨hopKey, hruleKey, hthenKey⟩ := own_keys
  have hop := hfree "op" hopKey.1 hopKey.2.1 hopKey.2.2
  have hrule := hfree "ruleId" hruleKey.1 hruleKey.2.1 hruleKey.2.2
  have hthen := hfree "then" hthenKey.1 hthenKey.2.1 hthenKey.2.2
  rw [namedValues, hop, hrule, hthen]
  intro v hv
  simp only [List.mem_cons, List.not_mem_nil, or_false] at hv
  obtain rfl | rfl | rfl := hv <;> rfl

/-- What a message carries over is there where the message's own value is. -/
lemma nullish_buildPayload (hregular : Regular f) (htracked : Tracked U world st) (hk : k ≠ subjectKey) :
    isNullish (valueAt (buildPayload f st.slots world) k) =
      isNullish (valueAt (f.slots.foldl (slotPayload st.slots) []) k) := by
  unfold buildPayload
  dsimp only
  split_ifs with hsend
  · split
    · next slot hslot =>
      split_ifs with hentity
      · rw [valueAt_forwarded slot hk]
        by_cases hbody : k = bodyKey
        · obtain ⟨fs, hfs, hrole, hkey⟩ := hregular.message hsend
          have hfilled : st.slots.get? fs.role = some slot := by rw [hrole, hslot]
          have hvalue : isNullish slot.value = false := by
            rw [htracked.slots] at hslot
            obtain ⟨c, -, rfl⟩ := Option.map_eq_some_iff.mp hslot
            refine Bool.eq_false_iff.mpr fun hnull => ?_
            rw [(claim_spec c).2.anonymous hnull] at hentity
            exact Bool.false_ne_true hentity
          have hbase : valueAt (f.slots.foldl (slotPayload st.slots) []) bodyKey = orElse slot.value .null :=
            valueAt_filled hregular.keys hfs hkey hfilled
          rw [if_pos hbody, hbody, hbase, isNullish_orElse, hvalue]
          cases (world.entities.find? fun e => some e.id = slot.entityId).bind (·.textField "body") with
          | none =>
            change isNullish (orElse slot.value .null) = false
            rw [isNullish_orElse, hvalue]
          | some body => rfl
        · rw [if_neg hbody]
      · rw [valueAt_titled hk]
    · rw [valueAt_titled hk]
  · rfl

end Payloads

section Candidates

variable {U : Engine} {world : WorldModel} {tokens : List Token} {c : Candidate} {f : OpFrame} {st : Filling} {ir : IR}

lemma filling_spec (hregular : Regular f) (htracked : Tracked U world st) (hcovered : ∀ fs ∈ f.slots, Covered st fs)
    (hknown : ∀ d ∈ st.claims, d.slot ∈ f.slots) (hmissing : st.requiredMissing = []) (hflag : st.entityAmbiguous = false)
    (hintent : ir.intent = f.op) (hslots : ir.slots = st.slots) (hpayload : ir.payload = buildPayload f st.slots world) :
    (∀ g ∈ st.gaps, g.kind = .malformed) ∧ ir.Complete ↔ st.bare = [] ∧ ∀ d ∈ st.claims, d.Resolved U world := by
  have hvalue {d : Claim} {key : JsString} (hd : d ∈ st.claims) (hkey : d.slot.payloadKey = some key)
      (hrequired : d.slot.required = true) :
      isNullish (valueAt ir.payload key) = isNullish (d.fill U world none).slot.value := by
    have hsubject : key ≠ subjectKey := by
      rintro rfl
      exact hregular.untitled (List.mem_filterMap.mpr ⟨d.slot, List.mem_filter.mpr ⟨hknown d hd, hrequired⟩, hkey⟩)
    rw [hpayload, nullish_buildPayload hregular htracked hsubject,
      valueAt_filled hregular.keys (hknown d hd) hkey (htracked.get hd), isNullish_orElse]
  rw [htracked.gapless_iff, and_assoc]
  refine and_congr_right fun _ => ?_
  constructor
  · rintro ⟨hgaps, hcomplete⟩ d hd
    refine (claim_spec d).1.mp ⟨hgaps d hd, fun ⟨hrequired, hkeyed⟩ => ?_⟩
    obtain ⟨key, hkey⟩ := Option.ne_none_iff_exists'.mp hkeyed
    rw [← hvalue hd hkey hrequired]
    refine hcomplete.required key ?_
    rw [hintent, hregular.required]
    exact List.mem_filterMap.mpr ⟨d.slot, List.mem_filter.mpr ⟨hknown d hd, hrequired⟩, hkey⟩
  · intro hresolved
    have hsettled (d : Claim) (hd : d ∈ st.claims) := (claim_spec d).1.mpr (hresolved d hd)
    refine ⟨fun d hd => (hsettled d hd).gaps, ?_, ?_, ?_⟩
    · intro s hs
      rw [hslots] at hs
      obtain ⟨role, hrole⟩ := OrderedMap.mem_values.mp hs
      rw [htracked.slots] at hrole
      obtain ⟨d, hd, rfl⟩ := Option.map_eq_some_iff.mp hrole
      exact (claim_spec d).2.tied (htracked.flags hflag d (List.mem_of_find?_eq_some hd))
    · intro key hkey
      rw [hintent, hregular.required] at hkey
      obtain ⟨fs, hfs, hkey⟩ := List.mem_filterMap.mp hkey
      obtain ⟨hmem, hrequired⟩ := List.mem_filter.mp hfs
      obtain ⟨d, hd, hrole⟩ := List.mem_map.mp (hcovered fs hmem hrequired hmissing)
      obtain rfl : d.slot = fs := List.inj_on_of_nodup_map hregular.roles (hknown d hd) hmem hrole
      rw [hvalue hd hkey hrequired]
      refine (hsettled d hd).value ⟨hrequired, ?_⟩
      rw [hkey]
      exact Option.some_ne_none key
    · rw [hpayload]
      exact named_frame hregular

/-- A candidate without a missing slot or a tie is complete and gapless exactly if all that it claims is resolved. -/
lemma candidate_spec (ir : IR) (hc : c ∈ matchFrames U tokens world none) (hmissing : c.filling.requiredMissing = [])
    (hflag : c.filling.entityAmbiguous = false) (hintent : ir.intent = c.ir.intent) (hslots : ir.slots = c.ir.slots)
    (hpayload : ir.payload = c.ir.payload) :
    (∀ g ∈ c.filling.gaps, g.kind = .malformed) ∧ ir.Complete ↔
      c.filling.bare = [] ∧ ∀ d ∈ c.filling.claims, d.Resolved U world := by
  obtain ⟨f, hf, i, cls, rfl⟩ := mem_matchFrames hc
  have hregular := regular_framesForWorld hf
  obtain ⟨htracked, hcovered⟩ := tracked_fillSlots (U := U) tokens i hregular.roles
  exact filling_spec hregular htracked hcovered (claims_fillSlots U f tokens i world none) hmissing hflag hintent hslots
    hpayload

end Candidates

end VivimOmega.Nlcl

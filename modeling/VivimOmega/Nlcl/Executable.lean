import VivimOmega.Nlcl.Resolved

/-! When an interpretation that is ok can be run as it stands. -/

namespace VivimOmega.Nlcl

open Library Library.Json

section Recognizers

variable {U : Engine} {world : WorldModel} {r : Recognized}

def Recognized.Sound (r : Recognized) : Prop := (∀ g ∈ r.gaps, g.kind = .malformed) ∧ r.ir.Complete

lemma Recognized.Sound.gapless (h : r.Sound) {g : GapNote} (hg : g ∈ r.gaps) (hkind : g.kind ≠ .malformed) : False :=
  hkind (h.1 g hg)

lemma Recognized.sound_of (hgaps : r.gaps = []) (hcomplete : r.ir.Complete) : r.Sound := by
  refine ⟨?_, hcomplete⟩
  rw [hgaps]
  exact fun g hg => absurd hg List.not_mem_nil

lemma untied_empty : ∀ s ∈ (OrderedMap.empty : OrderedMap JsString IRSlot).values, isTied s.found = false :=
  fun _ hs => absurd hs List.not_mem_nil

lemma untied_set {slots : OrderedMap JsString IRSlot} {k : JsString} {v : IRSlot}
    (h : ∀ s ∈ slots.values, isTied s.found = false) (hv : isTied v.found = false) :
    ∀ s ∈ (slots.set k v).values, isTied s.found = false := by
  intro s hs
  obtain ⟨key, hkey⟩ := OrderedMap.mem_values.mp hs
  rw [OrderedMap.get?_set] at hkey
  split_ifs at hkey
  · obtain rfl := Option.some.inj hkey
    exact hv
  · exact h s (OrderedMap.mem_values.mpr ⟨key, hkey⟩)

lemma valueAt_cons (k key : JsString) (v : Value) (payload : List (JsString × Value)) :
    valueAt ((k, v) :: payload) key = if k = key then v else valueAt payload key := by
  unfold valueAt
  rw [List.find?_cons]
  by_cases hkey : k = key
  · rw [if_pos hkey, decide_eq_true hkey]
    rfl
  · rw [if_neg hkey, decide_eq_false hkey]

/-- Neither null nor with a null op in it. -/
def isSolid (v : Value) : Bool := !isNull v && !isNull (optionalProperty v "op")

lemma named_solid {payload : List (JsString × Value)} (h : ∀ m ∈ payload, isSolid m.2 = true) :
    ∀ v ∈ namedValues payload, isNull v = false := by
  have hvalue (key : String) : isSolid (lookup payload key) = true := by
    rw [lookup_eq, valueAt]
    cases hfound : payload.find? fun m => m.1 = ofText key with
    | none => rfl
    | some m => exact h m (List.mem_of_find?_eq_some hfound)
  have hsolid {v : Value} (hv : isSolid v = true) : isNull v = false ∧ isNull (optionalProperty v "op") = false := by
    unfold isSolid at hv
    rwa [Bool.and_eq_true, Bool.not_eq_true', Bool.not_eq_true'] at hv
  intro v hv
  simp only [namedValues, List.mem_cons, List.not_mem_nil, or_false] at hv
  obtain rfl | rfl | rfl := hv
  · exact (hsolid (hvalue "op")).1
  · exact (hsolid (hvalue "ruleId")).1
  · exact (hsolid (hvalue "then")).2

def keyless : List String :=
  ["surface.help", "surface.entity", "message.list@1", "director.teach@1", "director.registry@1", "director.rule@1"]

lemma requiredKeys_keyless : ∀ intent ∈ keyless, requiredKeys (ofText intent) = [] := by
  decide

lemma unneeded {ir : IR} (intent : String) (hkeyless : intent ∈ keyless) (hintent : ir.intent = ofText intent) :
    ∀ key ∈ requiredKeys ir.intent, isNullish (valueAt ir.payload key) = false := by
  rw [hintent, requiredKeys_keyless intent hkeyless]
  exact fun key hkey => absurd hkey List.not_mem_nil

lemma complete_of {ir : IR} (intent : String) (hkeyless : intent ∈ keyless)
    (hslots : ∀ s ∈ ir.slots.values, isTied s.found = false) (hintent : ir.intent = ofText intent)
    (hpayload : ∀ m ∈ ir.payload, isSolid m.2 = true) : ir.Complete :=
  ⟨hslots, unneeded intent hkeyless hintent, named_solid hpayload⟩

lemma solid_nil : ∀ m ∈ ([] : List (JsString × Value)), isSolid m.2 = true := fun _ hm => absurd hm List.not_mem_nil

lemma solid_cons {key : JsString} {v : Value} {payload : List (JsString × Value)} (hv : isSolid v = true)
    (h : ∀ m ∈ payload, isSolid m.2 = true) : ∀ m ∈ (key, v) :: payload, isSolid m.2 = true :=
  List.forall_mem_cons.mpr ⟨hv, h⟩

lemma forall_of_some {α : Type} {o : Option α} {a : α} {P : α → Prop} (h : o = some a) : (∀ b, o = some b → P b) ↔ P a := by
  subst h
  constructor
  · intro hall
    exact hall a rfl
  · intro ha b hb
    obtain rfl := Option.some.inj hb
    exact ha

lemma entityQuery_sound {s : JsString} (h : recognizeEntityQuery U s world = some r) :
    r.Sound ↔ ∀ phrase, queryPhrase U s = some phrase → phraseKnown U world phrase := by
  obtain ⟨phrase, hphrase, rfl⟩ := Option.map_eq_some_iff.mp h
  rw [forall_of_some hphrase]
  dsimp only
  split
  · next p hp =>
    have hfound : (groundPhrase U phrase world.entities none).found ≠ [] := by
      intro hnil
      rw [GroundResult.primary, hnil] at hp
      cases hp
    rw [phraseKnown, and_iff_right hfound]
    cases hambiguous : (groundPhrase U phrase world.entities none).ambiguous with
    | true => exact iff_of_false (fun hsound => hsound.gapless List.mem_cons_self (fun hkind => by cases hkind)) Bool.noConfusion
    | false =>
      refine iff_of_true (Recognized.sound_of rfl (complete_of "surface.entity" (by decide) ?_ rfl
        (solid_cons rfl solid_nil))) rfl
      exact untied_set untied_empty ((isTied_take _).trans hambiguous)
  · next hmissing =>
    refine iff_of_false (fun hsound => hsound.gapless List.mem_cons_self (fun hkind => by cases hkind)) fun hknown => ?_
    exact hknown.1 (List.head?_eq_none_iff.mp hmissing)

/-- The phrase of an entity that a question mark asks for, where no other help is. -/
def askedPhrase (U : Engine) (folded : JsString) (tokens : List Token) (world : WorldModel) : Option JsString :=
  let t := trim (stripEnd "?!." folded)
  if t ∈ helpPhrases then none
  else if (capabilities U t world).isSome then none
  else if queried tokens.tail = [] then none
  else queryPhrase U (queried tokens.tail)

lemma helpIr_sound : Recognized.Sound { ir := helpIr } :=
  Recognized.sound_of rfl (complete_of "surface.help" (by decide) untied_empty rfl solid_nil)

lemma capabilities_sound {t : JsString} (h : capabilities U t world = some r) : r.Sound := by
  obtain ⟨verb, -, hverb⟩ := Option.bind_eq_some_iff.mp h
  dsimp only at hverb
  split_ifs at hverb
  obtain rfl := Option.some.inj hverb
  exact Recognized.sound_of rfl
    (complete_of "surface.help" (by decide) untied_empty rfl (solid_cons rfl (solid_cons rfl solid_nil)))

lemma help_sound {folded : JsString} {tokens : List Token} (h : recognizeHelp U folded tokens world = some r) :
    r.Sound ↔ ∀ phrase, askedPhrase U folded tokens world = some phrase → phraseKnown U world phrase := by
  unfold recognizeHelp at h
  unfold askedPhrase
  dsimp only at h ⊢
  split_ifs at h with hempty hhelp
  · obtain rfl := Option.some.inj h
    rw [if_pos hhelp]
    exact iff_of_true helpIr_sound nofun
  · rw [if_neg hhelp]
    cases hcan : capabilities U (trim (stripEnd "?!." folded)) world with
    | some found =>
      rw [hcan] at h
      obtain rfl := Option.some.inj h
      exact iff_of_true (capabilities_sound hcan) nofun
    | none =>
      rw [hcan] at h
      rw [Option.isSome_none, if_neg Bool.false_ne_true]
      cases tokens with
      | nil => exact nomatch h
      | cons first rest =>
        dsimp only at h
        split_ifs at h with hsymbol hquery
        · obtain rfl := Option.some.inj h
          rw [List.tail_cons, if_pos hquery]
          exact iff_of_true helpIr_sound nofun
        · rw [List.tail_cons, if_neg hquery]
          obtain rfl := Option.some.inj h
          cases hentity : recognizeEntityQuery U (queried rest) world with
          | some found => exact entityQuery_sound hentity
          | none =>
            have hphrase : queryPhrase U (queried rest) = none := Option.map_eq_none_iff.mp hentity
            rw [hphrase]
            exact iff_of_true helpIr_sound nofun

lemma inbox_sound {folded : JsString} (h : recognizeInbox folded = some r) : r.Sound := by
  obtain ⟨folder, -, rfl⟩ := Option.map_eq_some_iff.mp h
  exact Recognized.sound_of rfl
    (complete_of "message.list@1" (by decide) (untied_set untied_empty rfl) rfl (solid_cons rfl solid_nil))

lemma teach_sound {folded : JsString} (h : recognizeTeach U folded world = some r) :
    r.Sound ↔ ∀ p, teachPhrase (trim folded) = some p → (taughtOp U p.2 world).isSome := by
  unfold recognizeTeach at h
  dsimp only at h
  split at h
  · next spoken meant hphrase =>
    rw [forall_of_some hphrase]
    split at h
    · next op hop =>
      obtain rfl := Option.some.inj h
      rw [hop]
      refine iff_of_true (Recognized.sound_of rfl (complete_of "director.teach@1" (by decide) ?_ rfl
        (solid_cons rfl (solid_cons rfl (solid_cons rfl solid_nil))))) rfl
      exact untied_set (untied_set untied_empty rfl) rfl
    · next hnone =>
      obtain rfl := Option.some.inj h
      rw [hnone]
      exact iff_of_false (fun hsound => hsound.gapless List.mem_cons_self nofun) Bool.false_ne_true
  · next hphrase =>
    obtain ⟨spoken, -, rfl⟩ := Option.map_eq_some_iff.mp h
    rw [hphrase]
    refine iff_of_true (Recognized.sound_of rfl (complete_of "director.teach@1" (by decide) ?_ rfl
      (solid_cons rfl (solid_cons rfl solid_nil)))) nofun
    exact untied_set untied_empty rfl

/-- A rule is switched by a phrase that names one, and defined by a sender that is known and an action that is a command. -/
def RuleKnown (U : Engine) (folded : JsString) (world : WorldModel) : Prop :=
  let t := stripEnd ".!?" (trim folded)
  isListing t = true ∨
    match disablePhrase t, enablePhrase t, definitionPhrase t with
    | some phrase, _, _ => (groundPhrase U phrase world.entities ruleTypes).found ≠ []
    | none, some phrase, _ => (groundPhrase U phrase world.entities ruleTypes).found ≠ []
    | none, none, some (trigger, action) => ∀ phrase, triggerSender U trigger world = some phrase →
        contactKnown U world phrase ∧ ruleActions U action world ≠ []
    | none, none, none => True

lemma switchRule_sound (action sign : String) (family : Family) (phrase : JsString) :
    (switchRule U action sign family phrase world).Sound ↔ (groundPhrase U phrase world.entities ruleTypes).found ≠ [] := by
  unfold switchRule
  dsimp only
  cases hprimary : (groundPhrase U phrase world.entities ruleTypes).primary with
  | some p =>
    refine iff_of_true (Recognized.sound_of rfl (complete_of "director.registry@1" (by decide) untied_empty rfl
      (solid_cons rfl (solid_cons rfl (solid_cons rfl solid_nil))))) fun hnil => ?_
    rw [GroundResult.primary, hnil] at hprimary
    cases hprimary
  | none =>
    refine iff_of_false (fun hsound => hsound.gapless List.mem_cons_self (fun hkind => by cases hkind)) fun hfound => ?_
    exact hfound (List.head?_eq_none_iff.mp hprimary)

lemma groundContact_gaps (phrase : JsString) : (∀ g ∈ (groundContact U phrase world).gaps, g.kind = .malformed) ↔
    contactKnown U world phrase := by
  unfold groundContact contactKnown
  split_ifs with hanyone
  · exact iff_of_true (fun g hg => absurd hg List.not_mem_nil) (.inl hanyone)
  · rw [or_iff_right hanyone]
    dsimp only
    split
    · next p hp =>
      refine iff_of_true (fun g hg => absurd hg List.not_mem_nil) fun hnil => ?_
      rw [GroundResult.primary, hnil] at hp
      cases hp
    · next hmissing =>
      refine iff_of_false (fun hall => by cases hall _ List.mem_cons_self) fun hfound => ?_
      exact hfound (List.head?_eq_none_iff.mp hmissing)

lemma definedRule_complete (sender : ContactGrounding) (best : IR) : (definedRule sender best).ir.Complete := by
  have htrigger (event from_ : Value) : isSolid (.object [(ofText "event", event), (ofText "from", from_)]) = true := by
    have hevent : ofText "event" ≠ ofText "op" := by decide
    have hfrom : ofText "from" ≠ ofText "op" := by decide
    change (true && !isNull (valueAt _ (ofText "op"))) = true
    rw [valueAt_cons, if_neg hevent, valueAt_cons, if_neg hfrom]
    rfl
  have haction (op : JsString) (payload : Value) :
      isSolid (.object [(ofText "op", .string op), (ofText "payload", payload)]) = true := by
    change (true && !isNull (valueAt _ (ofText "op"))) = true
    rw [valueAt_cons, if_pos rfl]
    rfl
  unfold definedRule
  refine complete_of "director.rule@1" (by decide) ?_ rfl (solid_cons (htrigger _ _) (solid_cons (haction _ _) solid_nil))
  exact untied_set (untied_set untied_empty rfl) rfl

lemma ruleListing_sound : ruleListing.Sound := by
  unfold ruleListing
  refine Recognized.sound_of rfl ?_
  exact complete_of "director.registry@1" (by decide) untied_empty rfl (solid_cons rfl solid_nil)

lemma definedRule_sound (sender : ContactGrounding) (best : IR) :
    (definedRule sender best).Sound ↔ ∀ g ∈ sender.gaps, g.kind = .malformed :=
  and_iff_left (definedRule_complete sender best)

lemma undefinedRule_unsound (sender : ContactGrounding) (action : JsString) : ¬ (undefinedRule sender action).Sound := by
  unfold undefinedRule
  exact fun hsound => hsound.gapless List.mem_cons_self nofun

lemma rule_sound {folded : JsString} (h : recognizeRule U folded world = some r) : r.Sound ↔ RuleKnown U folded world := by
  unfold recognizeRule at h
  unfold RuleKnown
  dsimp only at h ⊢
  split_ifs at h with hlisting
  · obtain rfl := Option.some.inj h
    exact iff_of_true ruleListing_sound (.inl hlisting)
  · rw [or_iff_right hlisting]
    cases hdisable : disablePhrase (stripEnd ".!?" (trim folded)) with
    | some phrase =>
      rw [hdisable] at h
      obtain rfl := Option.some.inj h
      exact switchRule_sound _ _ _ _
    | none =>
    cases henable : enablePhrase (stripEnd ".!?" (trim folded)) with
    | some phrase =>
      rw [hdisable, henable] at h
      obtain rfl := Option.some.inj h
      exact switchRule_sound _ _ _ _
    | none =>
    cases hdefinition : definitionPhrase (stripEnd ".!?" (trim folded)) with
    | none =>
      rw [hdisable, henable, hdefinition] at h
      exact nomatch h
    | some p =>
      obtain ⟨trigger, action⟩ := p
      rw [hdisable, henable, hdefinition] at h
      obtain ⟨phrase, hphrase, rfl⟩ := Option.map_eq_some_iff.mp h
      dsimp only
      rw [forall_of_some hphrase]
      cases hactions : ruleActions U action world with
      | cons best more =>
        rw [and_iff_left (List.cons_ne_nil _ _), ← groundContact_gaps]
        exact definedRule_sound _ _
      | nil =>
        exact iff_of_false (undefinedRule_unsound _ _) fun hknown => hknown.2 rfl

/-- Whoever a message is to come from. -/
def senderKnown (U : Engine) (world : WorldModel) (phrase : JsString) : Prop :=
  isAnyone U phrase = true ∨ (senderGrounding U phrase world).found ≠ [] ∧ isTied (senderGrounding U phrase world).found = false

lemma groundContact_found (phrase : JsString) : isTied (groundContact U phrase world).found = false ↔
    (isAnyone U phrase = true ∨ isTied (senderGrounding U phrase world).found = false) := by
  unfold groundContact
  split_ifs with hanyone
  · exact iff_of_true rfl (.inl hanyone)
  · rw [or_iff_right hanyone]
    dsimp only
    split
    · rw [isTied_take]
    · next hmissing =>
      rw [List.head?_eq_none_iff.mp hmissing]

lemma receive_sound {folded : JsString} (h : recognizeReceive U folded world = some r) :
    r.Sound ↔ ∀ p, receivePhrase U (stripEnd ".!?" (trim folded)) = some p → senderKnown U world p.1 := by
  obtain ⟨⟨phrase, said⟩, hp, rfl⟩ := Option.map_eq_some_iff.mp h
  rw [forall_of_some hp]
  have hknown : senderKnown U world phrase ↔ contactKnown U world phrase ∧ isTied (groundContact U phrase world).found = false := by
    rw [groundContact_found, contactKnown, senderKnown, or_and_left]
  rw [hknown, ← groundContact_gaps]
  refine and_congr_right fun _ => ?_
  dsimp only
  constructor
  · intro hcomplete
    have hother : ofText "from" ≠ ofText "body" := by decide
    have hslots := hcomplete.slots
    cases hbody : said.filter (· ≠ []) with
    | none =>
      rw [hbody] at hslots
      have hslot := hslots _ (OrderedMap.mem_values.mpr ⟨ofText "from", OrderedMap.get?_set_self _ _ _⟩)
      exact hslot
    | some b =>
      rw [hbody] at hslots
      have hslot := hslots _ (OrderedMap.mem_values.mpr ⟨ofText "from",
        (OrderedMap.get?_set_of_ne _ _ hother).trans (OrderedMap.get?_set_self _ _ _)⟩)
      exact hslot
  · intro htied
    refine ⟨?_, ?_, named_solid (solid_cons rfl (solid_cons rfl (solid_cons rfl (solid_cons rfl solid_nil))))⟩
    · cases said.filter (· ≠ []) with
      | none => exact untied_set untied_empty htied
      | some b => exact untied_set (untied_set untied_empty htied) rfl
    · have hrequired : requiredKeys (ofText "message.receive@1") = texts ["from"] := by decide
      change ∀ key ∈ requiredKeys (ofText "message.receive@1"), _
      rw [hrequired]
      intro key hkey
      rw [List.mem_singleton.mp hkey, valueAt_cons, if_pos rfl]
      rfl

end Recognizers

section Condition

variable (U : Engine)

/-- All that the claims of the best candidate say of the world is known in it, where nothing else holds it back. -/
def FramesKnown (tokens : List Token) (world : WorldModel) : Prop :=
  ∀ primary rest, rankedCandidates U tokens world = primary :: rest →
    frameStatus primary (rest.filter (isTie primary)) = .ok →
    primary.filling.bare = [] ∧ ∀ d ∈ primary.filling.claims, d.Resolved U world

/-- Whichever reads the input first, what the input speaks of is known. -/
def Known (input : JsString) (world : WorldModel) : Prop :=
  let tokens := (lex U.toUnicode input).tokens
  let folded := fold U.toUnicode input
  trim input = [] ∨
    match recognizeHelp U folded tokens world, recognizeInbox folded, recognizeTeach U folded world,
      recognizeRule U folded world, recognizeReceive U folded world with
    | some _, _, _, _, _ => ∀ phrase, askedPhrase U folded tokens world = some phrase → phraseKnown U world phrase
    | none, some _, _, _, _ => True
    | none, none, some _, _, _ => ∀ p, teachPhrase (trim folded) = some p → (taughtOp U p.2 world).isSome
    | none, none, none, some _, _ => RuleKnown U folded world
    | none, none, none, none, some _ =>
      ∀ p, receivePhrase U (stripEnd ".!?" (trim folded)) = some p → senderKnown U world p.1
    | none, none, none, none, none =>
      match if asksForEntity folded then queryPhrase U input else none with
      | some phrase => phraseKnown U world phrase
      | none => FramesKnown U tokens world

lemma assemble_executable {tokens : List Token} {r : Recognized} {m : Modifiers} :
    (assemble tokens { r.ir with modifiers := m } r.gaps []).Executable ↔ r.Sound := by
  constructor
  · intro h
    obtain ⟨hgaps, hcomplete⟩ := h rfl
    obtain ⟨hslots, hrequired, hnamed⟩ := hcomplete _ rfl
    exact ⟨hgaps, hslots, hrequired, hnamed⟩
  · rintro ⟨hgaps, hslots, hrequired, hnamed⟩ -
    refine ⟨hgaps, fun ir hir => ?_⟩
    obtain rfl := Option.some.inj hir
    exact ⟨hslots, hrequired, hnamed⟩

lemma frameStatus_ok {primary : Candidate} {ties : List Candidate} (h : frameStatus primary ties = .ok) :
    primary.filling.entityAmbiguous = false ∧ primary.filling.requiredMissing = [] := by
  unfold frameStatus at h
  split_ifs at h with hambiguous hfull
  exact ⟨Bool.eq_false_iff.mpr fun hflag => hambiguous (.inl hflag), hfull.2.1⟩

lemma resolved_executable {tokens : List Token} {world : WorldModel} {primary : Candidate} {rest : List Candidate}
    (h : rankedCandidates U tokens world = primary :: rest) : (resolved tokens primary rest).Executable ↔
      (frameStatus primary (rest.filter (isTie primary)) = .ok →
        primary.filling.bare = [] ∧ ∀ d ∈ primary.filling.claims, d.Resolved U world) := by
  refine forall_congr' fun hstatus => ?_
  obtain ⟨hflag, hmissing⟩ := frameStatus_ok hstatus
  have hmem : primary ∈ rankedCandidates U tokens world := h ▸ List.mem_cons_self
  obtain ⟨c, hc, rfl⟩ := List.mem_map.mp ((List.mem_insertionSort _).mp hmem)
  change c.filling.requiredMissing = [] at hmissing
  change c.filling.entityAmbiguous = false at hflag
  have hspec := candidate_spec { c.ir with confidence := candidateScore c, modifiers := modifiersOf tokens } hc hmissing
    hflag rfl rfl rfl
  refine Iff.trans ?_ hspec
  have hgaps : (resolved tokens (scoreCandidate c) rest).gaps = c.filling.gaps := by
    change c.filling.gaps ++ c.filling.requiredMissing.map _ = _
    rw [hmissing, List.map_nil, List.append_nil]
  rw [hgaps]
  refine and_congr_right fun _ => ?_
  constructor
  · intro hcomplete
    exact hcomplete _ rfl
  · intro hcomplete ir hir
    obtain rfl := Option.some.inj hir
    exact hcomplete

lemma recognized_sound {input : JsString} {world : WorldModel} (hinput : trim input ≠ []) {r : Recognized}
    (h : recognized U input (lex U.toUnicode input).tokens world = some r) : r.Sound ↔ Known U input world := by
  unfold recognized recognizers at h
  unfold Known
  rw [or_iff_right hinput]
  dsimp only at h ⊢
  cases hhelp : recognizeHelp U (fold U.toUnicode input) (lex U.toUnicode input).tokens world with
  | some found =>
    rw [hhelp] at h
    obtain rfl := Option.some.inj h
    exact help_sound hhelp
  | none =>
  cases hinbox : recognizeInbox (fold U.toUnicode input) with
  | some found =>
    rw [hhelp, hinbox] at h
    obtain rfl := Option.some.inj h
    exact iff_of_true (inbox_sound hinbox) trivial
  | none =>
  cases hteach : recognizeTeach U (fold U.toUnicode input) world with
  | some found =>
    rw [hhelp, hinbox, hteach] at h
    obtain rfl := Option.some.inj h
    exact teach_sound hteach
  | none =>
  cases hrule : recognizeRule U (fold U.toUnicode input) world with
  | some found =>
    rw [hhelp, hinbox, hteach, hrule] at h
    obtain rfl := Option.some.inj h
    exact rule_sound hrule
  | none =>
  cases hreceive : recognizeReceive U (fold U.toUnicode input) world with
  | some found =>
    rw [hhelp, hinbox, hteach, hrule, hreceive] at h
    obtain rfl := Option.some.inj h
    exact receive_sound hreceive
  | none =>
    rw [hhelp, hinbox, hteach, hrule, hreceive] at h
    change (if asksForEntity (fold U.toUnicode input) = true then _ else none) = some r at h
    split_ifs at h with hasks
    rw [if_pos hasks, entityQuery_sound h]
    obtain ⟨phrase, hphrase, -⟩ := Option.map_eq_some_iff.mp h
    rw [forall_of_some hphrase, hphrase]

lemma unrecognized_known {input : JsString} {world : WorldModel} (hinput : trim input ≠ [])
    (h : recognized U input (lex U.toUnicode input).tokens world = none) :
    Known U input world ↔ FramesKnown U (lex U.toUnicode input).tokens world := by
  unfold recognized recognizers at h
  unfold Known
  rw [or_iff_right hinput]
  dsimp only at h ⊢
  split at h
  · exact nomatch h
  · next hnone =>
    have hall := List.findSome?_eq_none_iff.mp hnone
    simp only [List.mem_cons, List.not_mem_nil, or_false, forall_eq_or_imp, forall_eq, id_eq] at hall
    obtain ⟨hhelp, hinbox, hteach, hrule, hreceive⟩ := hall
    rw [hhelp, hinbox, hteach, hrule, hreceive]
    dsimp only
    split_ifs at h ⊢ with hasks
    · have hphrase : queryPhrase U input = none := Option.map_eq_none_iff.mp h
      rw [hphrase]
    · rfl

/-- The interpretation of an input can be run as it stands exactly if what the input speaks of is known. -/
theorem executable_iff (input : JsString) (world : WorldModel) :
    (interpret U input world).Executable ↔ Known U input world := by
  unfold interpret
  dsimp only
  split_ifs with hinput
  · exact iff_of_true (fun hstatus => nomatch hstatus) (.inl hinput)
  · cases hrecognized : recognized U input (lex U.toUnicode input).tokens world with
    | some found =>
      dsimp only
      rw [assemble_executable]
      exact recognized_sound U hinput hrecognized
    | none =>
      dsimp only
      rw [unrecognized_known U hinput hrecognized]
      cases hranked : rankedCandidates U (lex U.toUnicode input).tokens world with
      | nil =>
        refine iff_of_true (fun hstatus => nomatch hstatus) fun primary rest hcons => ?_
        exact nomatch hranked.symm.trans hcons
      | cons primary rest =>
        dsimp only
        rw [resolved_executable U hranked]
        constructor
        · intro hknown other others hcons
          obtain ⟨rfl, rfl⟩ := List.cons.inj (hranked.symm.trans hcons)
          exact hknown
        · intro hknown
          exact hknown primary rest hranked

/-- No rule of that name is known, and the command to disable it is ok all the same. -/
theorem disabled_unknown :
    ¬ (interpret plainEngine (ofText "disable rule lunch") emptyWorld).Executable := by
  intro h
  have hrun : (interpret plainEngine (ofText "disable rule lunch") emptyWorld).status = .ok ∧
      ∃ g ∈ (interpret plainEngine (ofText "disable rule lunch") emptyWorld).gaps, g.kind = .unresolvedSlot := by
    decide +kernel
  obtain ⟨hok, g, hg, hkind⟩ := hrun
  exact nomatch hkind.symm.trans ((h hok).1 g hg)

end Condition

end VivimOmega.Nlcl

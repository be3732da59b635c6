import VivimOmega.Nlcl.Interpret

/-! What an interpretation proposes to run, and whether the world routes it. -/

namespace VivimOmega.Nlcl

open Library Library.Json

section Proposals

def ruleIntent : JsString := ofText "director.rule@1"

/-- The op that a rule is to run. -/
def actionOps (ir : IR) : List JsString :=
  if ir.intent = ruleIntent then
    match optionalProperty (lookup ir.payload "then") "op" with
    | .string op => [op]
    | _ => []
  else []

def IR.ops (ir : IR) : List JsString := ir.intent :: actionOps ir

def proposedOps (i : Interpretation) : List JsString := (i.ir.toList ++ i.alternatives).flatMap IR.ops

variable (U : Engine)

/-- The op that a rule phrase stands for by itself. -/
def ruleOp (t : JsString) (world : WorldModel) : Option JsString :=
  if isListing t ∨ (disablePhrase t).isSome ∨ (enablePhrase t).isSome then some (ofText "director.registry@1")
  else if ((definitionPhrase t).bind fun d => triggerSender U d.1 world).isSome then some ruleIntent
  else none

/-- The op of the phrase that a recognizer takes the input for, where that is no surface intent. -/
def phraseOp (folded : JsString) (tokens : List Token) (world : WorldModel) : Option JsString :=
  if (recognizeHelp U folded tokens world).isSome then none
  else if (inboxFolder folded).isSome then some (ofText "message.list@1")
  else if (teachPhrase (trim folded)).isSome ∨ (forgetPhrase (trim folded)).isSome then
    some (ofText "director.teach@1")
  else
    match ruleOp U (stripEnd ".!?" (trim folded)) world with
    | some op => some op
    | none =>
      if (receivePhrase U (stripEnd ".!?" (trim folded))).isSome then some (ofText "message.receive@1") else none

end Proposals

section Frames

variable {U : Engine} {world : WorldModel} {tokens : List Token} {contextOverride : Option ContextRef}

/-- Every candidate is a frame of the world, filled at a token. -/
lemma mem_matchFrames {c : Candidate} (h : c ∈ matchFrames U tokens world contextOverride) :
    ∃ frame ∈ framesForWorld U world, ∃ i cls,
      c = { fillFrame U frame tokens i world contextOverride with verbCls := cls } := by
  obtain hcommand | hword := List.mem_append.mp (List.mem_of_mem_take h)
  · obtain ⟨t, -, hc⟩ := List.mem_flatMap.mp hcommand
    obtain ⟨frame, hframe, rfl⟩ := List.mem_map.mp hc
    exact ⟨frame, (List.mem_filter.mp hframe).1, t.i, .exact, rfl⟩
  · obtain ⟨found, hfound, hc⟩ := List.mem_flatMap.mp hword
    obtain ⟨hit, hhit, rfl⟩ := List.mem_map.mp hc
    rw [List.mem_insertionSort] at hhit hfound
    obtain ⟨t, -, hsome⟩ := List.mem_filterMap.mp hfound
    dsimp only at hsome
    split_ifs at hsome
    obtain rfl := Option.some.inj hsome
    exact ⟨hit.frame, mem_of_verbHits (fun _ => covered_framesForWorld) hhit, t.i, hit.cls, rfl⟩

/-- An op that is neither the rule's nor the surface's. -/
def Ordinary (op : JsString) : Prop := op ≠ ruleIntent ∧ ¬ surfacePrefix <+: op

instance decidableOrdinary (op : JsString) : Decidable (Ordinary op) := inferInstanceAs (Decidable (_ ∧ _))

lemma ordinary_registry : Ordinary (ofText "director.registry@1") := by decide

lemma ordinary_list : Ordinary (ofText "message.list@1") := by decide

lemma ordinary_teach : Ordinary (ofText "director.teach@1") := by decide

lemma ordinary_receive : Ordinary (ofText "message.receive@1") := by decide

lemma surface_entity : surfacePrefix <+: ofText "surface.entity" := by decide

lemma surface_named : surfacePrefix <+: ofText "surface.help" := by decide

lemma rule_plain : ¬ surfacePrefix <+: ruleIntent := by decide

lemma rule_known : ruleIntent ∈ DEFAULT_FRAMES.map OpFrame.op := by decide

lemma rule_bare : ∀ f ∈ DEFAULT_FRAMES, f.op = ruleIntent → f.slots.length = 0 := by decide

lemma ruleFrame_bare {f : OpFrame} (h : f ∈ framesForWorld U world) (hop : f.op = ruleIntent) : f.slots = [] := by
  obtain hdefault | hgeneric := List.mem_append.mp h
  · exact List.eq_nil_of_length_eq_zero (rule_bare f (List.mem_filter.mp hdefault).1 hop)
  · obtain ⟨op, hkept, rfl⟩ := List.mem_map.mp hgeneric
    obtain rfl : op = ruleIntent := hop
    exact absurd rule_known (of_decide_eq_true (List.mem_filter.mp hkept).2)

lemma ops_matchFrames {c : Candidate} (h : c ∈ matchFrames U tokens world contextOverride) :
    Routed world c.ir.intent ∧ actionOps c.ir = [] := by
  obtain ⟨frame, hframe, i, cls, rfl⟩ := mem_matchFrames h
  refine ⟨routed_framesForWorld hframe, ?_⟩
  change (if frame.op = ruleIntent then
    match optionalProperty (lookup (buildPayload frame _ world) "then") "op" with
    | .string op => [op]
    | _ => [] else []) = []
  split_ifs with hop
  · have hsend : ¬ frame.op = ofText "message.send@1" := by
      rw [hop]
      decide
    rw [buildPayload, ruleFrame_bare hframe hop, if_neg hsend]
    rfl
  · rfl

end Frames

section Recognizers

variable {U : Engine} {world : WorldModel} {tokens : List Token} {folded input : JsString} {found : Recognized} {ir : IR}

def IR.IsSurface (ir : IR) : Prop := surfacePrefix <+: ir.intent

lemma actionOps_other (h : ir.intent ≠ ruleIntent) : actionOps ir = [] := if_neg h

lemma IR.IsSurface.routed (h : ir.IsSurface) : ∀ op ∈ ir.ops, Routed world op := by
  have hother : ir.intent ≠ ruleIntent := by
    intro heq
    rw [IR.IsSurface, heq] at h
    exact rule_plain h
  rw [IR.ops, actionOps_other hother]
  intro op hop
  rw [List.mem_singleton.mp hop]
  exact .inl h

lemma surface_query {s : JsString} (h : recognizeEntityQuery U s world = some found) : found.ir.IsSurface := by
  have hnamed := surface_entity
  obtain ⟨phrase, -, rfl⟩ := Option.map_eq_some_iff.mp h
  dsimp only
  split <;> exact hnamed

lemma surface_help (h : recognizeHelp U folded tokens world = some found) : found.ir.IsSurface := by
  have hnamed := surface_named
  unfold recognizeHelp at h
  dsimp only at h
  split_ifs at h with _ hphrase
  · obtain rfl := Option.some.inj h
    exact hnamed
  · split at h
    · next found' _ hcapable =>
      obtain rfl := Option.some.inj h
      obtain ⟨verb, -, hhits⟩ := Option.bind_eq_some_iff.mp hcapable
      dsimp only at hhits
      split_ifs at hhits
      obtain rfl := Option.some.inj hhits
      exact hnamed
    · split_ifs at h with hsymbol hempty
      · obtain rfl := Option.some.inj h
        exact hnamed
      · obtain rfl := Option.some.inj h
        cases hquery : recognizeEntityQuery U (queried _) world with
        | none => exact hnamed
        | some eq => exact surface_query hquery
    · exact nomatch h

lemma inbox_intent (h : recognizeInbox folded = some found) : found.ir.intent = ofText "message.list@1" := by
  obtain ⟨folder, -, rfl⟩ := Option.map_eq_some_iff.mp h
  rfl

lemma teach_intent (h : recognizeTeach U folded world = some found) : found.ir.intent = ofText "director.teach@1" := by
  unfold recognizeTeach at h
  dsimp only at h
  split at h
  · split at h <;>
    · obtain rfl := Option.some.inj h
      rfl
  · obtain ⟨spoken, -, rfl⟩ := Option.map_eq_some_iff.mp h
    rfl

lemma receive_intent (h : recognizeReceive U folded world = some found) :
    found.ir.intent = ofText "message.receive@1" := by
  obtain ⟨said, -, rfl⟩ := Option.map_eq_some_iff.mp h
  rfl

lemma teach_isSome : (recognizeTeach U folded world).isSome ↔
    (teachPhrase (trim folded)).isSome ∨ (forgetPhrase (trim folded)).isSome := by
  unfold recognizeTeach
  dsimp only
  cases hteach : teachPhrase (trim folded) with
  | some p =>
    simp only [Option.isSome_some, true_or, iff_true]
    split <;> rfl
  | none => simp

lemma actionOps_definedRule {sender : ContactGrounding} {best : IR} :
    actionOps (definedRule sender best).ir = [best.intent] := by
  have hintent : (definedRule sender best).ir.intent = ruleIntent := rfl
  rw [actionOps, if_pos hintent]
  rfl

lemma rule_spec (U : Engine) (folded : JsString) (world : WorldModel) : match recognizeRule U folded world with
    | some found => ruleOp U (stripEnd ".!?" (trim folded)) world = some found.ir.intent ∧
        ∀ op ∈ actionOps found.ir, Routed world op
    | none => ruleOp U (stripEnd ".!?" (trim folded)) world = none := by
  generalize ht : stripEnd ".!?" (trim folded) = t
  unfold recognizeRule
  rw [ht]
  dsimp only
  have hother := ordinary_registry.1
  have hswitch (action sign : String) (family : Family) (phrase : JsString) :
      ∀ op ∈ actionOps (switchRule U action sign family phrase world).ir, Routed world op := by
    rw [actionOps_other hother]
    exact fun op hop => absurd hop List.not_mem_nil
  by_cases hlist : isListing t = true
  · rw [if_pos hlist]
    refine ⟨if_pos (.inl hlist), ?_⟩
    rw [actionOps_other hother]
    exact fun op hop => absurd hop List.not_mem_nil
  · rw [if_neg hlist]
    cases hdisable : disablePhrase t with
    | some phrase => exact ⟨if_pos (.inr (.inl (by rw [hdisable]; rfl))), hswitch _ _ _ _⟩
    | none =>
      cases henable : enablePhrase t with
      | some phrase => exact ⟨if_pos (.inr (.inr (by rw [henable]; rfl))), hswitch _ _ _ _⟩
      | none =>
        have hnone : ¬ (isListing t ∨ (disablePhrase t).isSome ∨ (enablePhrase t).isSome) := by
          rw [hdisable, henable]
          rintro (h | h | h)
          · exact hlist h
          · exact Bool.false_ne_true h
          · exact Bool.false_ne_true h
        rw [ruleOp, if_neg hnone]
        cases hdefined : definitionPhrase t with
        | none => rfl
        | some d =>
          obtain ⟨trigger, action⟩ := d
          rw [Option.bind_some]
          dsimp only
          unfold defineRule
          cases hsender : triggerSender U trigger world with
          | none => rfl
          | some phrase =>
            rw [Option.map_some]
            dsimp only
            cases hactions : ruleActions U action world with
            | nil =>
              refine ⟨rfl, fun op hop => ?_⟩
              exact absurd hop List.not_mem_nil
            | cons best rest =>
              refine ⟨rfl, fun op hop => ?_⟩
              rw [actionOps_definedRule] at hop
              rw [List.mem_singleton.mp hop]
              have hmem : best ∈ ruleActions U action world := by
                rw [hactions]
                exact List.mem_cons_self
              rw [ruleActions, List.mem_insertionSort] at hmem
              exact (ops_matchFrames (List.mem_of_mem_take hmem)).1

/-- For an op that no surface serves, being routed is being in the world. -/
lemma routed_ops_iff (hsurface : ¬ surfacePrefix <+: ir.intent) (hactions : ∀ op ∈ actionOps ir, Routed world op) :
    (∀ op ∈ ir.ops, Routed world op) ↔ ∀ op ∈ some ir.intent, op ∈ world.ops := by
  rw [IR.ops, List.forall_mem_cons]
  constructor
  · rintro ⟨hintent, -⟩ op hop
    obtain rfl := Option.mem_some_iff.mp hop
    exact hintent.resolve_left hsurface
  · exact fun h => ⟨.inr (h _ rfl), hactions⟩

lemma plain_ops_iff {op : JsString} (hintent : ir.intent = op) (hop : Ordinary op) :
    (∀ op ∈ ir.ops, Routed world op) ↔ ∀ named ∈ some op, named ∈ world.ops := by
  obtain ⟨hother, hsurface⟩ := hop
  rw [← hintent] at hother hsurface ⊢
  refine routed_ops_iff hsurface ?_
  rw [actionOps_other hother]
  exact fun op hop => absurd hop List.not_mem_nil

lemma surface_ops_iff (h : ir.IsSurface) :
    (∀ op ∈ ir.ops, Routed world op) ↔ ∀ op ∈ (none : Option JsString), op ∈ world.ops :=
  ⟨fun _ => nofun, fun _ => h.routed⟩

lemma ruleOp_plain {t op : JsString} (h : ruleOp U t world = some op) : ¬ surfacePrefix <+: op := by
  have hregistry := ordinary_registry.2
  have hrule := rule_plain
  unfold ruleOp at h
  split_ifs at h
  · exact Option.some.inj h ▸ hregistry
  · exact Option.some.inj h ▸ hrule

lemma recognized_ops (U : Engine) (input : JsString) (tokens : List Token) (world : WorldModel) :
    match recognized U input tokens world with
    | some found => (∀ op ∈ found.ir.ops, Routed world op) ↔
        ∀ op ∈ phraseOp U (fold U.toUnicode input) tokens world, op ∈ world.ops
    | none => phraseOp U (fold U.toUnicode input) tokens world = none := by
  unfold recognized
  dsimp only
  generalize fold U.toUnicode input = folded
  unfold recognizers phraseOp
  have hrulespec := rule_spec U folded world
  cases hhelp : recognizeHelp U folded tokens world with
  | some found => exact surface_ops_iff (surface_help hhelp)
  | none =>
    cases hinbox : recognizeInbox folded with
    | some found =>
      have hsome : (inboxFolder folded).isSome := by
        rw [← Option.isSome_map, ← recognizeInbox, hinbox]
        rfl
      simp only [List.findSome?, id, Option.isSome_none, Bool.false_eq_true, if_false, if_pos hsome]
      exact plain_ops_iff (inbox_intent hinbox) ordinary_list
    | none =>
      have hnone : ¬ (inboxFolder folded).isSome := by
        rw [← Option.isSome_map, ← recognizeInbox, hinbox]
        exact Bool.false_ne_true
      cases hteach : recognizeTeach U folded world with
      | some found =>
        have hsome := teach_isSome.mp (Option.isSome_iff_exists.mpr ⟨found, hteach⟩)
        simp only [List.findSome?, id, Option.isSome_none, Bool.false_eq_true, if_false, if_neg hnone, if_pos hsome]
        exact plain_ops_iff (teach_intent hteach) ordinary_teach
      | none =>
        have hplain : ¬ ((teachPhrase (trim folded)).isSome ∨ (forgetPhrase (trim folded)).isSome) := by
          rw [← teach_isSome, hteach]
          exact Bool.false_ne_true
        simp only [List.findSome?, id, Option.isSome_none, Bool.false_eq_true, if_false, if_neg hnone, if_neg hplain]
        cases hrule : recognizeRule U folded world with
        | some found =>
          rw [hrule] at hrulespec
          obtain ⟨hop, hactions⟩ := hrulespec
          rw [hop]
          exact routed_ops_iff (ruleOp_plain hop) hactions
        | none =>
          rw [hrule] at hrulespec
          dsimp only at hrulespec
          rw [hrulespec]
          cases hreceive : recognizeReceive U folded world with
          | some found =>
            have hsome : (receivePhrase U (stripEnd ".!?" (trim folded))).isSome := by
              rw [recognizeReceive] at hreceive
              obtain ⟨said, hsaid, -⟩ := Option.map_eq_some_iff.mp hreceive
              rw [hsaid]
              rfl
            dsimp only
            rw [if_pos hsome]
            exact plain_ops_iff (receive_intent hreceive) ordinary_receive
          | none =>
            have hsilent : ¬ (receivePhrase U (stripEnd ".!?" (trim folded))).isSome := by
              rw [recognizeReceive, Option.map_eq_none_iff] at hreceive
              rw [hreceive]
              exact Bool.false_ne_true
            dsimp only
            rw [if_neg hsilent]
            split_ifs with hasks
            · cases hquery : recognizeEntityQuery U input world with
              | none => rfl
              | some found => exact surface_ops_iff (surface_query hquery)
            · rfl

theorem proposals_routed_iff (U : Engine) (input : JsString) (world : WorldModel) :
    (∀ op ∈ proposedOps (interpret U input world), Routed world op) ↔
      (trim input ≠ [] → ∀ op ∈ phraseOp U (fold U.toUnicode input) (lex U.toUnicode input).tokens world,
        op ∈ world.ops) := by
  unfold interpret
  split_ifs with hempty
  · exact ⟨fun _ h => absurd hempty h, fun _ => nofun⟩
  · rw [imp_iff_right hempty]
    dsimp only
    have hspec := recognized_ops U input (lex U.toUnicode input).tokens world
    generalize (lex U.toUnicode input).tokens = tokens at hspec ⊢
    cases hrec : recognized U input tokens world with
    | some found =>
      rw [hrec] at hspec
      refine Iff.trans ?_ hspec
      have hproposed : proposedOps (assemble tokens { found.ir with modifiers := modifiersOf tokens } found.gaps []) =
          found.ir.ops := List.append_nil _
      exact iff_of_eq (congrArg (fun ops : List JsString => ∀ op ∈ ops, Routed world op) hproposed)
    | none =>
      rw [hrec] at hspec
      dsimp only at hspec
      rw [hspec]
      refine ⟨fun _ => nofun, fun _ => ?_⟩
      have hranked (c : Candidate) (hc : c ∈ rankedCandidates U tokens world) :
          ∀ op ∈ IR.ops { c.ir with modifiers := modifiersOf tokens }, Routed world op := by
        rw [rankedCandidates, List.mem_insertionSort] at hc
        obtain ⟨matched, hmatched, rfl⟩ := List.mem_map.mp hc
        obtain ⟨hrouted, hactions⟩ := ops_matchFrames hmatched
        intro op hop
        obtain rfl | hop := List.mem_cons.mp hop
        · exact hrouted
        · exact absurd (hactions ▸ hop) List.not_mem_nil
      cases hcandidates : rankedCandidates U tokens world with
      | nil => exact fun op hop => absurd hop List.not_mem_nil
      | cons primary rest =>
        rw [hcandidates] at hranked
        intro op hop
        obtain ⟨ir, hir, hop⟩ := List.mem_flatMap.mp hop
        obtain hprimary | htie := List.mem_append.mp hir
        · obtain rfl := List.mem_singleton.mp hprimary
          exact hranked primary List.mem_cons_self op hop
        · obtain ⟨c, hc, rfl⟩ := List.mem_map.mp htie
          exact hranked c (List.mem_cons_of_mem _ (List.mem_filter.mp hc).1) op hop

/-- The inbox shortcut proposes its op to a world that routes none. -/
theorem inbox_unrouted : ¬ ∀ op ∈ proposedOps (interpret plainEngine (ofText "what is in my inbox") emptyWorld),
    Routed emptyWorld op := by
  decide

end Recognizers

end VivimOmega.Nlcl

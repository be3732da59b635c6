import VivimOmega.Inference.Candidates

/-! How severe the risk of a candidate is, against the action words that its label holds. -/

namespace VivimOmega.Inference

open Library Library.Json
open Nlcl (Unicode ascii trim isSpace)

section Table

/-- The table is not ordered by severity in one place: searching comes before moving. -/
lemma table_order : ∀ i k : Fin 14, i ≤ k →
    (BUTTON_ACTION_WORDS[k]).risk.severity ≤ (BUTTON_ACTION_WORDS[i]).risk.severity ∨
    i = 5 ∧ (BUTTON_ACTION_WORDS[k]).word ∈ ["move", "archive"].map ofText := by
  decide

lemma words_before : ∀ word ∈ ["send", "delete", "trash", "reply", "compose"].map ofText,
    ∃ j : Fin 5, BUTTON_ACTION_WORDS[j].word = word := by
  decide

/-- A word of moving gives way to the word of searching where no word before both of them occurs. -/
def Outranked (occurs : JsString → Prop) (a : ActionWord) : Prop :=
  a.word ∈ ["move", "archive"].map ofText ∧ occurs (ofText "search") ∧
    ∀ word ∈ ["send", "delete", "trash", "reply", "compose"].map ofText, ¬ occurs word

/-- The first word of the table that occurs is the most severe one. -/
lemma first_severe {occurs : JsString → Prop} [DecidablePred occurs] {a b : ActionWord}
    (hb : BUTTON_ACTION_WORDS.find? (fun a => occurs a.word) = some b) (ha : a ∈ BUTTON_ACTION_WORDS) (hoccurs : occurs a.word)
    (hrank : ¬ Outranked occurs a) : a.risk.severity ≤ b.risk.severity := by
  obtain ⟨hfound, i, hi, rfl, hbefore⟩ := List.find?_eq_some_iff_getElem.mp hb
  obtain ⟨k, hk, rfl⟩ := List.getElem_of_mem ha
  have hfound : occurs BUTTON_ACTION_WORDS[i].word := of_decide_eq_true hfound
  have hbefore : ∀ j (hlt : j < BUTTON_ACTION_WORDS.length), j < i → ¬ occurs (BUTTON_ACTION_WORDS[j]).word := by
    intro j hlt hj
    simpa using hbefore j hj
  have hle : i ≤ k := by
    by_contra hlt
    exact hbefore k hk (by omega) hoccurs
  obtain hsevere | ⟨hsearch, hmove⟩ := table_order ⟨i, hi⟩ ⟨k, hk⟩ hle
  · exact hsevere
  · obtain rfl : i = 5 := congrArg Fin.val hsearch
    refine absurd ⟨hmove, hfound, fun word hword => ?_⟩ hrank
    obtain ⟨j, rfl⟩ := words_before word hword
    exact hbefore j (j.isLt.trans (by decide)) j.isLt

end Table

section Labels

variable {U : Unicode} {label : JsString}

/-- A piece between cuts is a part of the text, and the first piece starts it. -/
lemma splitOnP_parts {α : Type} (p : α → Bool) (text : List α) : ∃ head rest, text.splitOnP p = head :: rest ∧
    head <+: text ∧ ∀ piece ∈ rest, piece <:+: text := by
  induction text with
  | nil => exact ⟨[], [], rfl, List.prefix_rfl, fun piece hpiece => absurd hpiece List.not_mem_nil⟩
  | cons u text ih =>
    obtain ⟨head, rest, hsplit, hhead, hrest⟩ := ih
    rw [List.splitOnP_cons_eq_if_modifyHead, hsplit]
    have hlater : ∀ piece ∈ rest, piece <:+: u :: text := fun piece hpiece => List.infix_cons (hrest piece hpiece)
    by_cases hu : p u = true
    · refine ⟨[], head :: rest, if_pos hu, List.nil_prefix, ?_⟩
      rw [List.forall_mem_cons]
      exact ⟨List.infix_cons hhead.isInfix, hlater⟩
    · exact ⟨u :: head, rest, if_neg hu, (List.prefix_cons_inj u).mpr hhead, hlater⟩

lemma words_inside {token : JsString} (h : token ∈ words U label) : token <:+: normalizeLabel U label := by
  obtain ⟨hmem, -⟩ := List.mem_filter.mp h
  obtain ⟨head, rest, hsplit, hhead, hrest⟩ := splitOnP_parts (fun u => !isWordUnit u) (normalizeLabel U label)
  rw [hsplit, List.mem_cons] at hmem
  rcases hmem with rfl | hmem
  · exact hhead.isInfix
  · exact hrest token hmem

/-- A risk that fails closed on a label, as far as the order of the table and of its passes lets it. -/
structure RiskCovers (U : Unicode) (label : JsString) (risk : RiskHint) : Prop where
  token : directOp U label = none → ∀ a ∈ BUTTON_ACTION_WORDS, a.word ∈ words U label →
    ¬ Outranked (· ∈ words U label) a → a.risk.severity ≤ risk.severity
  inside : directOp U label = none → (∀ b ∈ BUTTON_ACTION_WORDS, b.word ∉ words U label) →
    ∀ a ∈ BUTTON_ACTION_WORDS, a.word <:+: normalizeLabel U label →
      ¬ Outranked (· <:+: normalizeLabel U label) a → a.risk.severity ≤ risk.severity
  direct : ∀ op ∈ directOp U label, ∀ a ∈ BUTTON_ACTION_WORDS, (op.splitOn dot).getLast? = some a.word →
    a.risk.severity ≤ risk.severity
  unknown : directOp U label = none → (∀ a ∈ BUTTON_ACTION_WORDS, ¬ a.word <:+: normalizeLabel U label) →
    risk = .externalMutation

/-- The risk of a button by what its label matches. -/
def buttonRisk (U : Unicode) (label : JsString) : RiskHint := (matchButton U label).elim .externalMutation WordMatch.risk

lemma riskForDirectOp_tail {op : JsString} {a : ActionWord} (ha : a ∈ BUTTON_ACTION_WORDS)
    (h : (op.splitOn dot).getLast? = some a.word) : a.risk.severity ≤ (riskForDirectOp op).severity := by
  have hself : ∀ a ∈ BUTTON_ACTION_WORDS, (a.word.splitOn dot).getLast? = some a.word ∧
      a.risk.severity ≤ (riskForDirectOp a.word).severity := by
    decide
  obtain ⟨hword, hsevere⟩ := hself a ha
  have heq : riskForDirectOp op = riskForDirectOp a.word := by
    rw [riskForDirectOp, riskForDirectOp, h, hword]
  rwa [heq]

lemma buttonRisk_covers (U : Unicode) (label : JsString) : RiskCovers U label (buttonRisk U label) := by
  cases hdirect : directOp U label with
  | some op =>
    have hrisk : buttonRisk U label = riskForDirectOp op := by
      rw [buttonRisk, matchButton, hdirect]
      rfl
    refine ⟨fun h => ?_, fun h => ?_, fun op' hop a ha htail => ?_, fun h => ?_⟩
    · rw [hdirect] at h
      cases h
    · rw [hdirect] at h
      cases h
    · rw [hdirect, Option.mem_some_iff] at hop
      subst hop
      rw [hrisk]
      exact riskForDirectOp_tail ha htail
    · rw [hdirect] at h
      cases h
  | none =>
    have hmatch : matchButton U label = matchWord U BUTTON_ACTION_WORDS label := by rw [matchButton, hdirect]
    have hnodirect : ∀ op ∈ directOp U label, ∀ a ∈ BUTTON_ACTION_WORDS, (op.splitOn dot).getLast? = some a.word →
        a.risk.severity ≤ (buttonRisk U label).severity := by
      intro op hop
      rw [hdirect] at hop
      cases hop
    cases htoken : BUTTON_ACTION_WORDS.find? fun a => a.word ∈ words U label with
    | some b =>
      have hrisk : buttonRisk U label = b.risk := by
        rw [buttonRisk, hmatch, matchWord, htoken]
        rfl
      have hb : b.word ∈ words U label := by simpa using List.find?_some htoken
      have hmem := List.mem_of_find?_eq_some htoken
      refine ⟨fun _ a ha hword hrank => ?_, fun _ hno => absurd hb (hno b hmem), hnodirect,
        fun _ hno => absurd (words_inside hb) (hno b hmem)⟩
      rw [hrisk]
      exact first_severe htoken ha hword hrank
    | none =>
      have hno : ∀ a ∈ BUTTON_ACTION_WORDS, a.word ∉ words U label := by simpa using htoken
      refine ⟨fun _ a ha hword => absurd hword (hno a ha), fun _ _ a ha hinside hrank => ?_, hnodirect, fun _ hnone => ?_⟩
      · cases hfound : BUTTON_ACTION_WORDS.find? fun a => a.word <:+: normalizeLabel U label with
        | some b =>
          have hrisk : buttonRisk U label = b.risk := by
            rw [buttonRisk, hmatch, matchWord, htoken]
            dsimp only
            rw [hfound]
            rfl
          rw [hrisk]
          exact first_severe hfound ha hinside hrank
        | none => exact absurd hinside (by simpa using List.find?_eq_none.mp hfound a ha)
      · have hfound : (BUTTON_ACTION_WORDS.find? fun a => a.word <:+: normalizeLabel U label) = none := by
          simpa using hnone
        rw [buttonRisk, hmatch, matchWord, htoken]
        dsimp only
        rw [hfound]
        rfl

end Labels

section Candidates

variable {U : Unicode} {node : GraphNode} {found : WordMatch × ActionType}

lemma inferMatch_button (h : inferMatch U node = some found) (hkind : node.kind = ofText "button") :
    found.1.risk = buttonRisk U node.label := by
  have hmatch : matchKind U node = some (matchButton U node.label, .click) := if_pos hkind
  unfold inferMatch at h
  split_ifs at h with hevidence
  rw [hmatch, Option.bind_some] at h
  obtain ⟨m, hm, rfl⟩ := Option.map_eq_some_iff.mp h
  obtain ⟨hm, -⟩ := Option.filter_eq_some_iff.mp hm
  rw [buttonRisk]
  cases hbutton : matchButton U node.label with
  | some b =>
    rw [hbutton, Option.some_or] at hm
    rw [← Option.some.inj hm]
    rfl
  | none =>
    rw [hbutton, Option.none_or] at hm
    unfold genericMatch at hm
    split_ifs at hm with hslug htype
    · cases htype
    · rw [← Option.some.inj hm]
      rfl

/-- What a candidate is inferred from. -/
structure InferredFrom (U : Unicode) (node : GraphNode) (c : SurfaceContract) : Prop where
  evidence : node.evidence ≠ []
  cited : c.evidence = node.evidence
  source : c.nodeId = node.id
  selector : c.selector = node.selectorHint
  risk : node.kind = ofText "button" → RiskCovers U node.label c.riskHint

lemma candidate_inferred (h : inferMatch U node = some found) (seq : ℕ) : InferredFrom U node (candidate node seq found) where
  evidence := by
    intro hnone
    rw [inferMatch, if_pos hnone] at h
    cases h
  cited := rfl
  source := rfl
  selector := rfl
  risk hkind := by
    have hcovers := buttonRisk_covers U node.label
    rwa [← inferMatch_button h hkind] at hcovers

lemma inferFrom_spec (U : Unicode) (nodes : List GraphNode) : ∀ seq,
    (∃ sources : List GraphNode, sources.Sublist nodes ∧ List.Forall₂ (InferredFrom U) sources (inferFrom U seq nodes)) ∧
    (inferFrom U seq nodes).map SurfaceContract.id =
      (List.range' (seq + 1) (inferFrom U seq nodes).length).map candidateId := by
  induction nodes with
  | nil => exact fun seq => ⟨⟨[], .slnil, .nil⟩, rfl⟩
  | cons node rest ih =>
    intro seq
    rw [inferFrom]
    cases h : inferMatch U node with
    | none =>
      obtain ⟨⟨sources, hsub, hfrom⟩, hids⟩ := ih seq
      exact ⟨⟨sources, hsub.cons node, hfrom⟩, hids⟩
    | some found =>
      obtain ⟨⟨sources, hsub, hfrom⟩, hids⟩ := ih (seq + 1)
      refine ⟨⟨node :: sources, hsub.cons_cons node, .cons (candidate_inferred h _) hfrom⟩, ?_⟩
      dsimp only
      rw [List.map_cons, hids, List.length_cons, List.range'_succ, List.map_cons]
      rfl

/-- Candidates come from nodes with evidence, in their order, and those of buttons have a risk that covers the label. -/
theorem inferCandidates_fails_closed (U : Unicode) (graph : ApplicationGraph) :
    (∃ sources : List GraphNode, sources.Sublist graph.nodes ∧ List.Forall₂ (InferredFrom U) sources (inferCandidates U graph)) ∧
    (inferCandidates U graph).map SurfaceContract.id =
      (List.range' 1 (inferCandidates U graph).length).map candidateId := inferFrom_spec U graph.nodes 0

/-- The word at the start of this label names a milder risk than the one inside its second word. -/
def undelete : GraphNode := ⟨ofText "n0", ofText "button", ofText "Open undelete", ofText "#undelete", [⟨ofText "discovery", ofText "capture", 1⟩]⟩

theorem undelete_read : ¬ ∀ (U : Unicode) (node : GraphNode), node.kind = ofText "button" →
    ∀ a ∈ BUTTON_ACTION_WORDS, a.word <:+: normalizeLabel U node.label →
      ∀ c ∈ inferCandidates U ⟨[node]⟩, a.risk.severity ≤ c.riskHint.severity := by
  intro h
  have hread : (inferCandidates ascii ⟨[undelete]⟩).map SurfaceContract.riskHint = [.read] := by decide +kernel
  have hmem : RiskHint.read ∈ (inferCandidates ascii ⟨[undelete]⟩).map SurfaceContract.riskHint := by
    rw [hread]
    exact List.mem_singleton_self _
  obtain ⟨c, hc, hrisk⟩ := List.mem_map.mp hmem
  have hsevere := h ascii undelete rfl (actionWord "delete" "message.delete" .externalMutation) (by decide) (by decide +kernel) c hc
  rw [hrisk] at hsevere
  exact absurd hsevere (by decide)

end Candidates

end VivimOmega.Inference

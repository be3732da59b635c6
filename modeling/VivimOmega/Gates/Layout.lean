import VivimOmega.Gates.Watch
import VivimOmega.Library.Json.Canonical

/-! Layout by predicate: where the rules place the objects, and what the answers of a rule may decide. -/

namespace VivimOmega.Gates

open Library Library.Json

section Layout

structure CanvasObject where
  ref : JsString
  badge : JsString
  ns : JsString
  sentiment : Option Number
  gravity : Option Number

inductive RuleState
  | armed | paused | revoked
  deriving DecidableEq

/-- A number that is not NaN, in their order. -/
abbrev Priority := WithBot (WithTop ℚ)

/-- The predicate answers, or throws. -/
structure LayoutRule where
  id : JsString
  predicate : CanvasObject → Except JsString Bool
  predicateDesc : JsString
  zone : JsString
  priority : Priority
  grantedNamespaces : List JsString
  state : RuleState
  conceal : Bool

structure Placement where
  objectRef : JsString
  ruleRef : JsString
  zone : JsString
  evidenceRef : JsString
  watermark : Number
  deriving DecidableEq

structure Pin where
  objectRef : JsString
  x : Number
  y : Number
  pinnedBy : JsString
  pinnedAt : JsString

structure LayoutInput where
  objects : List CanvasObject
  rules : List LayoutRule
  pins : List Pin
  watermark : Number
  isEngine : Bool

structure Layout where
  placements : List Placement
  conflicts : List JsString

def notEngine : Refusal := ⟨"LAYOUT_NOT_ENGINE", "Only the layout engine writes placement rows. Your write was refused."⟩

def unnamedRule : Refusal := ⟨"LAYOUT_UNNAMED_RULE",
  "No arrangement without a named rule. Tell me how to organize, and I'll organize. I won't guess."⟩

def concealment : Refusal := ⟨"LAYOUT_CONCEALMENT",
  "A layout rule tried to make an object invisible. Layout arranges; it never conceals. If you want this gone, archive it — that's a different conversation."⟩

def checkRule (r : LayoutRule) : Option Refusal :=
  if r.state ≠ .armed then none
  else if r.id = [] ∨ Nlcl.trim r.predicateDesc = [] then some unnamedRule
  else if r.conceal then some concealment
  else none

def refusal (i : LayoutInput) : Option Refusal := if !i.isEngine then some notEngine else i.rules.findSome? checkRule

/-- What the comparator of the rules does not sort the other way. -/
def RuleLe (a b : LayoutRule) : Prop := b.priority < a.priority ∨ a.priority = b.priority ∧ keyLe a.id b.id

instance instDecidableRuleLe (a b : LayoutRule) : Decidable (RuleLe a b) := by
  unfold RuleLe
  infer_instance

def armedRules (rules : List LayoutRule) : List LayoutRule := (rules.filter (·.state = .armed)).insertionSort RuleLe

def isGranted (ns : JsString) (r : LayoutRule) : Bool :=
  decide (ns ∈ r.grantedNamespaces) || decide (ofText "*" ∈ r.grantedNamespaces)

def isPinned (pins : List Pin) (o : CanvasObject) : Bool := pins.any (·.objectRef = o.ref)

/-- The rules whose predicates hold, each asked in turn. -/
def holding (o : CanvasObject) : List LayoutRule → Except JsString (List LayoutRule)
  | [] => return []
  | r :: rest => do
    let holds ← r.predicate o
    let others ← holding o rest
    return if holds then r :: others else others

def pinConflict (pins : List Pin) (o : CanvasObject) (r : LayoutRule) : JsString :=
  let pinnedAt := ((pins.find? (·.objectRef = o.ref)).map Pin.pinnedAt).getD (ofText "undefined")
  ofText "layout.conflict " ++ o.ref ++ ofText ": rule " ++ r.id ++ ofText " would move a pin from " ++ pinnedAt ++
    ofText "; pin wins"

def lossConflict (o : CanvasObject) (winner l : LayoutRule) : JsString :=
  ofText "layout.conflict " ++ o.ref ++ ofText ": rule " ++ l.id ++ ofText " loses to " ++ winner.id ++ ofText " by priority"

def defaultRule : JsString := ofText "rule:default-zone"

def placement (watermark : Number) (o : CanvasObject) : List LayoutRule → Placement
  | [] => ⟨o.ref, defaultRule, ofText "default", o.ref ++ ofText ":no-match", watermark⟩
  | winner :: _ => ⟨o.ref, winner.id, winner.zone, o.ref ++ ofText ":" ++ winner.predicateDesc, watermark⟩

def lossConflicts (o : CanvasObject) : List LayoutRule → List JsString
  | [] => []
  | winner :: losers => losers.map (lossConflict o winner)

/-- A pinned object asks every armed rule; another one asks the rules with a grant. -/
def consulted (pins : List Pin) (armed : List LayoutRule) (o : CanvasObject) : List LayoutRule :=
  if isPinned pins o then armed else armed.filter (isGranted o.ns)

/-- What follows for an object from the rules that hold. The probe of the source for a rule without a grant catches
what it throws, and its answer is not used. -/
def settle (pins : List Pin) (watermark : Number) (o : CanvasObject) (matched : List LayoutRule) : Layout :=
  if isPinned pins o then ⟨[], matched.map (pinConflict pins o)⟩
  else ⟨[placement watermark o matched], lossConflicts o matched⟩

def arrange (pins : List Pin) (watermark : Number) (armed : List LayoutRule) : List CanvasObject → Except JsString Layout
  | [] => return ⟨[], []⟩
  | o :: rest => do
    let matched ← holding o (consulted pins armed o)
    let others ← arrange pins watermark armed rest
    let here := settle pins watermark o matched
    return ⟨here.placements ++ others.placements, here.conflicts ++ others.conflicts⟩

/-- The outer error is what a predicate throws. -/
def applyLayout (i : LayoutInput) : Except JsString (Except Refusal Layout) :=
  match refusal i with
  | some r => return .error r
  | none => (arrange i.pins i.watermark (armedRules i.rules) i.objects).map .ok

end Layout

section Answers

variable {pins : List Pin} {watermark : Number} {armed rules : List LayoutRule} {objects : List CanvasObject}
variable {o : CanvasObject} {r : LayoutRule} {e : JsString}

/-- A predicate that is asked about an object. -/
abbrev Visit := CanvasObject × LayoutRule

def thrown (v : Visit) : Option JsString :=
  match v.2.predicate v.1 with
  | .ok _ => none
  | .error e => some e

def Holds (o : CanvasObject) (r : LayoutRule) : Prop := r.predicate o = .ok true

instance instDecidableHolds (o : CanvasObject) (r : LayoutRule) : Decidable (Holds o r) :=
  decidable_of_iff (r.predicate o matches .ok true) (by
    unfold Holds
    split <;> simp_all)

def visits (pins : List Pin) (armed : List LayoutRule) (objects : List CanvasObject) : List Visit :=
  objects.flatMap fun o => (consulted pins armed o).map (o, ·)

lemma holding_throws (h : (rules.map (o, ·)).findSome? thrown = some e) : holding o rules = .error e := by
  induction rules with
  | nil => cases h
  | cons r rules ih =>
    rw [List.map_cons, List.findSome?_cons] at h
    cases hr : r.predicate o with
    | error e' =>
      simp only [thrown, hr, Option.some.injEq] at h
      simp only [holding, hr, h]
      rfl
    | ok b =>
      simp only [thrown, hr] at h
      simp only [holding, hr, ih h]
      rfl

lemma holding_answers (h : (rules.map (o, ·)).findSome? thrown = none) : holding o rules = .ok (rules.filter (Holds o)) := by
  induction rules with
  | nil => rfl
  | cons r rules ih =>
    rw [List.map_cons, List.findSome?_cons] at h
    cases hr : r.predicate o with
    | error e' => simp [thrown, hr] at h
    | ok b =>
      simp only [thrown, hr] at h
      simp only [holding, hr, ih h]
      cases b <;> simp [Holds, hr, bind, Except.bind, pure, Except.pure]

/-- The first predicate that throws ends the call. -/
lemma arrange_throws (h : (visits pins armed objects).findSome? thrown = some e) :
    arrange pins watermark armed objects = .error e := by
  induction objects with
  | nil => cases h
  | cons o objects ih =>
    rw [visits, List.flatMap_cons, List.findSome?_append] at h
    cases hfirst : ((consulted pins armed o).map (o, ·)).findSome? thrown with
    | some e' =>
      rw [hfirst, Option.some_or, Option.some.injEq] at h
      rw [arrange, holding_throws hfirst, h]
      rfl
    | none =>
      rw [hfirst, Option.none_or] at h
      rw [arrange, holding_answers hfirst, ih h]
      rfl

/-- What the rules make of an object when every predicate answers. -/
def settled (pins : List Pin) (watermark : Number) (armed : List LayoutRule) (o : CanvasObject) : Layout :=
  settle pins watermark o ((consulted pins armed o).filter (Holds o))

lemma arrange_answers (h : (visits pins armed objects).findSome? thrown = none) :
    arrange pins watermark armed objects = .ok
      ⟨objects.flatMap fun o => (settled pins watermark armed o).placements,
        objects.flatMap fun o => (settled pins watermark armed o).conflicts⟩ := by
  induction objects with
  | nil => rfl
  | cons o objects ih =>
    rw [visits, List.flatMap_cons, List.findSome?_append, Option.or_eq_none_iff] at h
    rw [arrange, holding_answers h.1, ih h.2]
    rfl

end Answers

section Law

variable {i : LayoutInput} {layout : Layout} {o : CanvasObject} {r r' : LayoutRule}

/-- No two objects of one ref, and no two rules of one id. -/
structure Apart (i : LayoutInput) : Prop where
  refs : (i.objects.map CanvasObject.ref).Nodup
  ids : (i.rules.map LayoutRule.id).Nodup

/-- An armed rule with a grant on the object's namespace, whose predicate holds. -/
structure Matching (i : LayoutInput) (o : CanvasObject) (r : LayoutRule) : Prop where
  mem : r ∈ i.rules
  armed : r.state = .armed
  granted : isGranted o.ns r = true
  holds : Holds o r

/-- The matching rule of the highest priority, and of the lowest id among those. -/
structure Winner (i : LayoutInput) (o : CanvasObject) (r : LayoutRule) : Prop where
  matching : Matching i o r
  first : ∀ r', Matching i o r' → r' ≠ r → r'.priority < r.priority ∨ r.priority = r'.priority ∧ keyLe r.id r'.id

/-- One placement for each object that is not pinned, by the winner where there is one, and none for a pinned one. -/
structure Placed (i : LayoutInput) (layout : Layout) : Prop where
  pinned : ∀ o ∈ i.objects, isPinned i.pins o = true → ∀ p ∈ layout.placements, p.objectRef ≠ o.ref
  unpinned : ∀ o ∈ i.objects, isPinned i.pins o = false → ∃ p, layout.placements.filter (·.objectRef = o.ref) = [p] ∧
    ((∃ r, Winner i o r ∧ p.ruleRef = r.id ∧ p.zone = r.zone) ∨ (∀ r, ¬ Matching i o r) ∧ p.ruleRef = defaultRule)

lemma ruleLe_total (a b : LayoutRule) : RuleLe a b ∨ RuleLe b a := by
  rcases lt_trichotomy a.priority b.priority with h | h | h
  · exact .inr (.inl h)
  · rcases le_total (a.id.map UInt16.toNat) (b.id.map UInt16.toNat) with hid | hid
    · exact .inl (.inr ⟨h, hid⟩)
    · exact .inr (.inr ⟨h.symm, hid⟩)
  · exact .inl (.inl h)

lemma ruleLe_trans {a b c : LayoutRule} (hab : RuleLe a b) (hbc : RuleLe b c) : RuleLe a c := by
  rcases hab with hab | ⟨hab, hid⟩
  · rcases hbc with hbc | ⟨hbc, -⟩
    · exact .inl (hbc.trans hab)
    · exact .inl (hbc ▸ hab)
  · rcases hbc with hbc | ⟨hbc, hid'⟩
    · exact .inl (hab ▸ hbc)
    · exact .inr ⟨hab.trans hbc, le_trans hid hid'⟩

lemma ruleLe_antisymm {a b : LayoutRule} (hab : RuleLe a b) (hba : RuleLe b a) : a.id = b.id := by
  rcases hab with hab | ⟨heq, hid⟩
  · rcases hba with hba | ⟨hba, -⟩
    · exact absurd (hab.trans hba) (lt_irrefl _)
    · exact absurd hab (hba ▸ lt_irrefl _)
  · rcases hba with hba | ⟨-, hid'⟩
    · exact absurd hba (heq ▸ lt_irrefl _)
    · exact keyLe_antisymm hid hid'

instance instTotalRuleLe : Std.Total RuleLe := ⟨ruleLe_total⟩

instance instTransRuleLe : IsTrans LayoutRule RuleLe := ⟨fun _ _ _ => ruleLe_trans⟩

lemma mem_armedRules {rules : List LayoutRule} : r ∈ armedRules rules ↔ r ∈ rules ∧ r.state = .armed := by
  rw [armedRules, List.mem_insertionSort, List.mem_filter, decide_eq_true_eq]

lemma armedRules_sorted (rules : List LayoutRule) : (armedRules rules).Pairwise RuleLe :=
  List.pairwise_insertionSort RuleLe _

/-- The order in which the rules are given does not show, since their ids differ. -/
lemma armedRules_perm {rules rules' : List LayoutRule} (hids : (rules.map LayoutRule.id).Nodup) (h : rules'.Perm rules) :
    armedRules rules' = armedRules rules := by
  refine List.Perm.eq_of_pairwise (fun a b ha hb hab hba => ?_) (armedRules_sorted rules') (armedRules_sorted rules) ?_
  · have ha' := h.mem_iff.mp (mem_armedRules.mp ha).1
    exact List.inj_on_of_nodup_map hids ha' (mem_armedRules.mp hb).1 (ruleLe_antisymm hab hba)
  · exact (List.perm_insertionSort RuleLe _).trans ((h.filter _).trans (List.perm_insertionSort RuleLe _).symm)

lemma refusal_perm {rules' : List LayoutRule} (h : rules'.Perm i.rules) (hnone : refusal i = none) :
    refusal { i with rules := rules' } = none := by
  unfold refusal at hnone ⊢
  by_cases hengine : i.isEngine = true
  · simp only [hengine, Bool.not_true, Bool.false_eq_true, if_false, List.findSome?_eq_none_iff] at hnone ⊢
    exact fun r hr => hnone r (h.mem_iff.mp hr)
  · simp [hengine] at hnone

lemma applyLayout_eq (hnone : refusal i = none) :
    applyLayout i = (arrange i.pins i.watermark (armedRules i.rules) i.objects).map .ok := by
  rw [applyLayout, hnone]

lemma arrange_of_ok (h : applyLayout i = .ok (.ok layout)) :
    arrange i.pins i.watermark (armedRules i.rules) i.objects = .ok layout := by
  cases href : refusal i with
  | some refused =>
    rw [applyLayout, href] at h
    cases h
  | none =>
    rw [applyLayout_eq href] at h
    cases harr : arrange i.pins i.watermark (armedRules i.rules) i.objects with
    | error e =>
      rw [harr] at h
      cases h
    | ok l =>
      rw [harr] at h
      cases h
      rfl

lemma layout_eq (h : applyLayout i = .ok (.ok layout)) :
    layout.placements = i.objects.flatMap fun o => (settled i.pins i.watermark (armedRules i.rules) o).placements := by
  have harr := arrange_of_ok h
  cases hfirst : (visits i.pins (armedRules i.rules) i.objects).findSome? thrown with
  | some e =>
    rw [arrange_throws hfirst] at harr
    cases harr
  | none =>
    rw [arrange_answers hfirst] at harr
    cases harr
    rfl

lemma mem_matches : r ∈ (consulted i.pins (armedRules i.rules) o).filter (Holds o) ∧ isPinned i.pins o = false ↔
    Matching i o r ∧ isPinned i.pins o = false := by
  refine and_congr_left fun hpin => ?_
  rw [consulted, hpin, List.mem_filter, if_neg (by simp), List.mem_filter, mem_armedRules, decide_eq_true_eq]
  exact ⟨fun h => ⟨h.1.1.1, h.1.1.2, h.1.2, h.2⟩, fun h => ⟨⟨⟨h.mem, h.armed⟩, h.granted⟩, h.holds⟩⟩

lemma consulted_sorted (pins : List Pin) (rules : List LayoutRule) (o : CanvasObject) :
    (consulted pins (armedRules rules) o).Pairwise RuleLe := by
  unfold consulted
  split_ifs
  · exact armedRules_sorted rules
  · exact (armedRules_sorted rules).sublist List.filter_sublist

lemma placement_ref (watermark : Number) (matched : List LayoutRule) : (placement watermark o matched).objectRef = o.ref := by
  cases matched <;> rfl

lemma settled_ref {pins : List Pin} {watermark : Number} {armed : List LayoutRule} {p : Placement}
    (h : p ∈ (settled pins watermark armed o).placements) : p.objectRef = o.ref := by
  unfold settled settle at h
  split_ifs at h
  · cases h
  · rw [List.mem_singleton.mp h]
    exact placement_ref ..

/-- The placements for an object are those that it settles for itself, since no other has its ref. -/
lemma filter_flatMap_ref {objects : List CanvasObject} (f : CanvasObject → List Placement)
    (href : ∀ o p, p ∈ f o → p.objectRef = o.ref) (hrefs : (objects.map CanvasObject.ref).Nodup) (ho : o ∈ objects) :
    (objects.flatMap f).filter (·.objectRef = o.ref) = f o := by
  have hself : ∀ x, x.ref = o.ref → (f x).filter (·.objectRef = o.ref) = f x := by
    intro x hx
    refine List.filter_eq_self.mpr fun p hp => ?_
    rw [decide_eq_true_eq, href x p hp, hx]
  have hother : ∀ x, x.ref ≠ o.ref → (f x).filter (·.objectRef = o.ref) = [] := by
    intro x hx
    refine List.filter_eq_nil_iff.mpr fun p hp => ?_
    rw [decide_eq_true_eq, href x p hp]
    exact hx
  induction objects with
  | nil => cases ho
  | cons x objects ih =>
    rw [List.map_cons, List.nodup_cons] at hrefs
    rw [List.flatMap_cons, List.filter_append]
    rcases List.mem_cons.mp ho with rfl | ho
    · have hrest : (objects.flatMap f).filter (·.objectRef = o.ref) = [] := by
        rw [List.filter_flatMap]
        refine List.flatMap_eq_nil_iff.mpr fun y hy => hother y fun heq => ?_
        exact hrefs.1 (heq ▸ List.mem_map_of_mem hy)
      rw [hself o rfl, hrest, List.append_nil]
    · have hne : x.ref ≠ o.ref := fun heq => hrefs.1 (heq ▸ List.mem_map_of_mem ho)
      rw [hother x hne, List.nil_append, ih hrefs.2 ho]

lemma placed_of_ok (hapart : Apart i) (h : applyLayout i = .ok (.ok layout)) : Placed i layout := by
  have hplacements := layout_eq h
  have hfilter : ∀ o ∈ i.objects, layout.placements.filter (·.objectRef = o.ref) =
      (settled i.pins i.watermark (armedRules i.rules) o).placements := by
    intro o ho
    rw [hplacements]
    exact filter_flatMap_ref _ (fun _ _ => settled_ref) hapart.refs ho
  constructor
  · intro o ho hpin p hp href
    have hmem : p ∈ layout.placements.filter (·.objectRef = o.ref) := by
      rw [List.mem_filter, decide_eq_true_eq]
      exact ⟨hp, href⟩
    rw [hfilter o ho, settled, settle, if_pos hpin] at hmem
    cases hmem
  · intro o ho hpin
    have hmatch : ∀ r, r ∈ (consulted i.pins (armedRules i.rules) o).filter (Holds o) ↔ Matching i o r := by
      intro r
      have hboth := mem_matches (i := i) (o := o) (r := r)
      rwa [and_iff_left hpin, and_iff_left hpin] at hboth
    have hsorted := (consulted_sorted i.pins i.rules o).sublist (List.filter_sublist (p := fun r => Holds o r))
    refine ⟨placement i.watermark o ((consulted i.pins (armedRules i.rules) o).filter (Holds o)), ?_, ?_⟩
    · rw [hfilter o ho, settled, settle, if_neg (by simp [hpin])]
    · cases hm : (consulted i.pins (armedRules i.rules) o).filter (Holds o) with
      | nil =>
        refine .inr ⟨fun r hr => ?_, rfl⟩
        have hmem := (hmatch r).mpr hr
        rw [hm] at hmem
        cases hmem
      | cons winner losers =>
        rw [hm] at hmatch hsorted
        refine .inl ⟨winner, ⟨(hmatch winner).mp List.mem_cons_self, fun r' hr' hne => ?_⟩, rfl, rfl⟩
        have hlost := (List.mem_cons.mp ((hmatch r').mpr hr')).resolve_left hne
        exact List.rel_of_pairwise_cons hsorted hlost

end Law

section Noninterference

variable {i j : LayoutInput} {pins : List Pin} {watermark : Number} {armed rules : List LayoutRule} {o : CanvasObject}
variable {r : LayoutRule} {e : JsString} {vs : List Visit} {objects : List CanvasObject}
variable {answers : LayoutRule → CanvasObject → Except JsString Bool}

def reanswered (answers : LayoutRule → CanvasObject → Except JsString Bool) (r : LayoutRule) : LayoutRule :=
  { r with predicate := answers r }

/-- The answers of armed rules in namespaces that they are not granted are all that the two differ in. -/
def Twin (i j : LayoutInput) : Prop :=
  ∃ answers, j = { i with rules := i.rules.map (reanswered answers) } ∧
    ∀ r ∈ i.rules, ∀ o, answers r o ≠ r.predicate o → r.state = .armed ∧ isGranted o.ns r = false

structure LayoutLaw (i : LayoutInput) : Prop where
  placed : ∀ layout, applyLayout i = .ok (.ok layout) → Placed i layout
  order : refusal i = none → ∀ rules, rules.Perm i.rules → applyLayout { i with rules := rules } = applyLayout i
  noninterference : ∀ j, Twin i j → applyLayout j = applyLayout i

/-- Up to the first predicate that throws, and with it, every one that is asked has the grant. -/
def Guarded : List Visit → Prop
  | [] => True
  | v :: rest => isGranted v.1.ns v.2 = true ∧ (thrown v = none → Guarded rest)

def reask (answers : LayoutRule → CanvasObject → Except JsString Bool) (v : Visit) : Visit := (v.1, reanswered answers v.2)

lemma thrown_reask {v : Visit} (h : answers v.2 v.1 = v.2.predicate v.1) : thrown (reask answers v) = thrown v := by
  simp only [thrown, reask, reanswered, h]

lemma guarded_first (hagree : ∀ v ∈ vs, isGranted v.1.ns v.2 = true → answers v.2 v.1 = v.2.predicate v.1)
    (h : Guarded vs) : (vs.map (reask answers)).findSome? thrown = vs.findSome? thrown := by
  induction vs with
  | nil => rfl
  | cons v vs ih =>
    have hv := thrown_reask (hagree v List.mem_cons_self h.1)
    rw [List.map_cons, List.findSome?_cons, List.findSome?_cons, hv]
    cases hthrown : thrown v with
    | some e => rfl
    | none => exact ih (fun x hx => hagree x (List.mem_cons_of_mem v hx)) (h.2 hthrown)

lemma guarded_granted (h : Guarded vs) (hnone : vs.findSome? thrown = none) : ∀ v ∈ vs, isGranted v.1.ns v.2 = true := by
  induction vs with
  | nil => simp
  | cons v vs ih =>
    rw [List.findSome?_eq_none_iff, List.forall_mem_cons] at hnone
    rw [List.forall_mem_cons]
    exact ⟨h.1, ih (h.2 hnone.1) (List.findSome?_eq_none_iff.mpr hnone.2)⟩

/-- Where the guard fails, a predicate without the grant is asked before any other has thrown. -/
lemma exposed_of_not_guarded (h : ¬ Guarded vs) : ∃ (before after : List Visit) (v : Visit), vs = before ++ v :: after ∧
    isGranted v.1.ns v.2 = false ∧ ∀ u ∈ before, isGranted u.1.ns u.2 = true ∧ thrown u = none := by
  induction vs with
  | nil => exact absurd trivial h
  | cons v vs ih =>
    by_cases hgrant : isGranted v.1.ns v.2 = true
    · rw [Guarded, not_and, Classical.not_imp] at h
      obtain ⟨hthrown, hrest⟩ := h hgrant
      obtain ⟨before, after, u, rfl, hu, hbefore⟩ := ih hrest
      refine ⟨v :: before, after, u, rfl, hu, ?_⟩
      rw [List.forall_mem_cons]
      exact ⟨⟨hgrant, hthrown⟩, hbefore⟩
    · exact ⟨[], vs, v, rfl, by simpa using hgrant, by simp⟩

lemma armedRules_reanswered (rules : List LayoutRule) :
    armedRules (rules.map (reanswered answers)) = (armedRules rules).map (reanswered answers) := by
  rw [armedRules, armedRules, List.filter_map]
  exact (List.map_insertionSort RuleLe RuleLe (reanswered answers) _ fun _ _ _ _ => Iff.rfl).symm

lemma refusal_reanswered : refusal { i with rules := i.rules.map (reanswered answers) } = refusal i := by
  unfold refusal
  split_ifs
  · rfl
  · rw [List.findSome?_map]
    rfl

lemma consulted_reanswered : consulted pins (armed.map (reanswered answers)) o =
    (consulted pins armed o).map (reanswered answers) := by
  unfold consulted
  split_ifs
  · rfl
  · rw [List.filter_map]
    rfl

lemma visits_reanswered : visits pins (armed.map (reanswered answers)) objects =
    (visits pins armed objects).map (reask answers) := by
  simp only [visits, List.map_flatMap, consulted_reanswered, List.map_map]
  rfl

lemma settle_reanswered (matched : List LayoutRule) :
    settle pins watermark o (matched.map (reanswered answers)) = settle pins watermark o matched := by
  unfold settle
  split_ifs
  · rw [List.map_map]
    rfl
  · cases matched with
    | nil => rfl
    | cons winner losers =>
      rw [List.map_cons, lossConflicts, List.map_map]
      rfl

lemma settled_reanswered (hagree : ∀ r ∈ consulted pins armed o, answers r o = r.predicate o) :
    settled pins watermark (armed.map (reanswered answers)) o = settled pins watermark armed o := by
  have hholds : ((consulted pins armed o).map (reanswered answers)).filter (Holds o) =
      ((consulted pins armed o).filter (Holds o)).map (reanswered answers) := by
    rw [List.filter_map]
    congr 1
    refine List.filter_congr fun r hr => decide_eq_decide.mpr ?_
    simp only [Holds, reanswered, hagree r hr]
  rw [settled, consulted_reanswered, hholds, settle_reanswered, settled]

lemma arrange_reanswered (hguarded : Guarded (visits pins armed objects))
    (hagree : ∀ v ∈ visits pins armed objects, isGranted v.1.ns v.2 = true → answers v.2 v.1 = v.2.predicate v.1) :
    arrange pins watermark (armed.map (reanswered answers)) objects = arrange pins watermark armed objects := by
  have hsame := guarded_first hagree hguarded
  rw [← visits_reanswered] at hsame
  cases hfirst : (visits pins armed objects).findSome? thrown with
  | some e =>
    rw [arrange_throws hfirst, arrange_throws (hsame.trans hfirst)]
  | none =>
    have hgranted := guarded_granted hguarded hfirst
    have hsettled : ∀ o ∈ objects, settled pins watermark (armed.map (reanswered answers)) o = settled pins watermark armed o := by
      intro o ho
      refine settled_reanswered fun r hr => ?_
      have hvisit : (o, r) ∈ visits pins armed objects :=
        List.mem_flatMap.mpr ⟨o, ho, List.mem_map_of_mem hr⟩
      exact hagree _ hvisit (hgranted _ hvisit)
    rw [arrange_answers hfirst, arrange_answers (hsame.trans hfirst),
      List.flatMap_congr fun o ho => congrArg Layout.placements (hsettled o ho),
      List.flatMap_congr fun o ho => congrArg Layout.conflicts (hsettled o ho)]

lemma visit_mem {v : Visit} (h : v ∈ visits pins (armedRules rules) objects) : v.2 ∈ rules ∧ v.2.state = .armed := by
  obtain ⟨o, -, hv⟩ := List.mem_flatMap.mp h
  obtain ⟨r, hr, rfl⟩ := List.mem_map.mp hv
  refine mem_armedRules.mp ?_
  unfold consulted at hr
  split_ifs at hr
  · exact hr
  · exact List.mem_of_mem_filter hr

lemma noninterference_of_guarded
    (h : refusal i = none → Guarded (visits i.pins (armedRules i.rules) i.objects)) (htwin : Twin i j) :
    applyLayout j = applyLayout i := by
  obtain ⟨answers, rfl, hanswers⟩ := htwin
  cases href : refusal i with
  | some refused => rw [applyLayout, applyLayout, refusal_reanswered, href]
  | none =>
    rw [applyLayout_eq href, applyLayout_eq (refusal_reanswered.trans href), armedRules_reanswered,
      arrange_reanswered (h href)]
    intro v hv hgrant
    by_contra hne
    have hopen := (hanswers v.2 (visit_mem hv).1 v.1 hne).2
    rw [hgrant] at hopen
    cases hopen

/-- A rule that throws wherever it is not granted. -/
def throwing (id e : JsString) (r : LayoutRule) (o : CanvasObject) : Except JsString Bool :=
  if r.id = id ∧ isGranted o.ns r = false then .error e else r.predicate o

lemma twin_throwing (hids : (i.rules.map LayoutRule.id).Nodup) (hr : r ∈ i.rules) (harmed : r.state = .armed) :
    Twin i { i with rules := i.rules.map (reanswered (throwing r.id e)) } := by
  refine ⟨_, rfl, fun r' hr' o hne => ?_⟩
  unfold throwing at hne
  split_ifs at hne with h
  · obtain rfl := List.inj_on_of_nodup_map hids hr' hr h.1
    exact ⟨harmed, h.2⟩
  · exact absurd rfl hne

/-- Another answer of the exposed predicate is another end of the call. -/
lemma guarded_of_noninterference (hapart : Apart i) (hnone : refusal i = none)
    (h : ∀ j, Twin i j → applyLayout j = applyLayout i) : Guarded (visits i.pins (armedRules i.rules) i.objects) := by
  by_contra hexposed
  obtain ⟨before, after, v, hsplit, hopen, hbefore⟩ := exposed_of_not_guarded hexposed
  have hv : v ∈ visits i.pins (armedRules i.rules) i.objects := by
    rw [hsplit]
    exact List.mem_append_right _ List.mem_cons_self
  obtain ⟨hr, harmed⟩ := visit_mem hv
  have hthrows : ∀ e, applyLayout i = .error e := by
    intro e
    rw [← h _ (twin_throwing (e := e) hapart.ids hr harmed), applyLayout_eq (refusal_reanswered.trans hnone),
      armedRules_reanswered, arrange_throws (e := e) ?_]
    · rfl
    · have hpassed : (before.map (reask (throwing v.2.id e))).findSome? thrown = none := by
        rw [List.findSome?_map, List.findSome?_eq_none_iff]
        intro u hu
        obtain ⟨hgrant, hthrown⟩ := hbefore u hu
        rw [Function.comp_apply, thrown_reask, hthrown]
        rw [throwing, if_neg (by simp [hgrant])]
      have hhere : thrown (reask (throwing v.2.id e) v) = some e := by
        simp only [thrown, reask, reanswered, throwing, hopen, and_self, if_true]
      rw [visits_reanswered, hsplit, List.map_append, List.findSome?_append, hpassed, Option.none_or, List.map_cons,
        List.findSome?_cons, hhere]
  have hboth := (hthrows []).symm.trans (hthrows [0])
  cases hboth

/-- The fold places exactly and keeps to no order for all rules; it keeps to the grants where each rule that a pinned
object asks has one, up to the first that throws. -/
theorem layout_law_iff (hapart : Apart i) :
    LayoutLaw i ↔ (refusal i = none → Guarded (visits i.pins (armedRules i.rules) i.objects)) := by
  constructor
  · exact fun h hnone => guarded_of_noninterference hapart hnone h.noninterference
  · intro h
    refine ⟨fun layout => placed_of_ok hapart, fun hnone rules hperm => ?_, fun j => noninterference_of_guarded h⟩
    rw [applyLayout_eq hnone, applyLayout_eq (refusal_perm hperm hnone), armedRules_perm hapart.ids hperm]

def note (ns : String) : CanvasObject := ⟨ofText "note", ofText "fresh", ofText ns, none, none⟩

def inboxRule (answer : Bool) : LayoutRule :=
  ⟨ofText "inbox", fun o => .ok (decide (o.ns = ofText "work") || answer), ofText "every note", ofText "left", 0, [ofText "work"], .armed, false⟩

def deskOf (answer : Bool) (ns : String) (pins : List Pin) : LayoutInput := ⟨[note ns], [inboxRule answer], pins, .zero, true⟩

theorem layout_law_iff_work : LayoutLaw (deskOf true "work" []) ↔
    (refusal (deskOf true "work" []) = none →
      Guarded (visits [] (armedRules [inboxRule true]) [note "work"])) :=
  layout_law_iff ⟨by decide, by decide⟩

def notePin : Pin := ⟨ofText "note", .zero, .zero, ofText "owner", ofText "noon"⟩

/-- What a rule answers about a pinned note in a namespace that it is not granted shows among the conflicts. -/
theorem pinned_note_shows : Apart (deskOf false "private" [notePin]) ∧
    Twin (deskOf false "private" [notePin]) (deskOf true "private" [notePin]) ∧
    applyLayout (deskOf false "private" [notePin]) = .ok (.ok ⟨[], []⟩) ∧
    applyLayout (deskOf true "private" [notePin]) = .ok (.ok ⟨[], [pinConflict [notePin] (note "private") (inboxRule true)]⟩) := by
  refine ⟨⟨by decide, by decide⟩, ?_, rfl, rfl⟩
  refine ⟨fun _ => (inboxRule true).predicate, rfl, fun r hr o hne => ?_⟩
  rw [List.mem_singleton.mp hr] at hne ⊢
  refine ⟨rfl, ?_⟩
  by_cases hwork : o.ns = ofText "work"
  · simp [inboxRule, hwork] at hne
  · have hstar : ofText "*" ∉ (inboxRule false).grantedNamespaces := by decide
    simp only [isGranted, hstar, decide_false, Bool.or_false, decide_eq_false_iff_not]
    exact fun hmem => hwork (List.mem_singleton.mp hmem)

end Noninterference

end VivimOmega.Gates

import VivimOmega.Law.Policy
import VivimOmega.Library.OrderedMap

/-! The compiled risk index, kept for each document, against the plain rules of the risk table. -/

namespace VivimOmega.Law

open Library Library.Json

section Reference

def covers (pattern op : JsString) : Bool := endsWithStar pattern && pattern.dropLast.isPrefixOf op

/-- The longest pattern, and of equally long ones the earliest. -/
def longest : List RiskEntry → Option RiskEntry
  | [] => none
  | r :: rest =>
    match longest rest with
    | some s => if r.op.length < s.op.length then some s else some r
    | none => some r

/-- The first exact row, else the longest prefix, else the default. -/
def plainRisk (table : List RiskEntry) (defaultRisk : Value) (op : JsString) : Value :=
  match table.find? fun r => !endsWithStar r.op && r.op = op with
  | some r => r.risk
  | none =>
    match longest (table.filter fun r => covers r.op op) with
    | some r => r.risk
    | none => defaultRisk

end Reference

section Documents

def readTable (doc : Value) : Except String (List RiskEntry) := do
  let table ← property doc "riskTable"
  let rows ← iterate table
  rows.mapM readRiskEntry

def readRules (doc : Value) : Except String (List Value) := do
  let ruleTable ← property doc "rules"
  iterate ruleTable

def IsRiskClass (v : Value) : Prop :=
  v = jsText "READ" ∨ v = jsText "MUTATION" ∨ v = jsText "EXTERNAL_MUTATION"

def IsOptionalText (v : Value) : Prop := v = .undefined ∨ ∃ s, v = .string s

/-- A row of the rule table, as its type has it. -/
def IsRule (rule : Value) : Prop :=
  (∃ d, property rule "decision" = .ok (.string d)) ∧
    ∃ m, matchOf rule = .ok m ∧ (∃ who, property m "principal" = .ok who ∧ IsOptionalText who) ∧
      IsOptionalText (optionalProperty m "op")

/-- A policy document whose rows are what their types say. -/
structure PolicyDoc where
  doc : Value
  table : List RiskEntry
  rules : List Value
  readTable_eq : readTable doc = .ok table
  readRules_eq : readRules doc = .ok rules
  classed : ∀ r ∈ table, IsRiskClass r.risk
  ruled : ∀ rule ∈ rules, IsRule rule

def PolicyDoc.defaultRisk (d : PolicyDoc) : Value := optionalProperty d.doc "defaultRisk"

end Documents

section Cache

abbrev DocRef := ℕ

abbrev RiskIndexCache := OrderedMap DocRef CompiledRiskIndex

/-- `riskIndex` with the index that is kept for the document. -/
def riskIndexCached (cache : RiskIndexCache) (ref : DocRef) (doc : Value) :
    Except String CompiledRiskIndex × RiskIndexCache :=
  match cache.get? ref with
  | some idx => (.ok idx, cache)
  | none =>
    match riskIndex doc with
    | .ok idx => (.ok idx, cache.set ref idx)
    | .error e => (.error e, cache)

def classifyCached (docs : DocRef → PolicyDoc) (cache : RiskIndexCache) (ref : DocRef) (op : JsString) :
    Except String Value × RiskIndexCache :=
  let (idx, cache) := riskIndexCached cache ref (docs ref).doc
  (idx.map fun idx => lookupRisk idx (docs ref).defaultRisk op, cache)

/-- The cache after a history of classifications. -/
def cacheAfter (docs : DocRef → PolicyDoc) (history : List (DocRef × JsString)) : RiskIndexCache :=
  history.foldl (fun cache call => (classifyCached docs cache call.1 call.2).2) .empty

end Cache

section Index

variable {r s : RiskEntry} {rows : List RiskEntry} {op pattern : JsString}

lemma opMatches_iff : opMatches pattern op = true ↔ pattern = op ∨ covers pattern op = true := by
  have hstar : covers [star] op = true := by simp [covers, endsWithStar]
  simp only [opMatches, covers, Bool.or_eq_true, decide_eq_true_eq]
  constructor
  · rintro ((rfl | h) | h)
    · exact .inr hstar
    · exact .inl h
    · exact .inr h
  · rintro (h | h)
    · exact .inl (.inr h)
    · exact .inr h

lemma opMatches_starred (h : endsWithStar pattern = true) : opMatches pattern op = covers pattern op := by
  have hself : pattern = op → covers pattern op = true := by
    rintro rfl
    rw [covers, h, Bool.true_and, List.isPrefixOf_iff_prefix]
    exact List.dropLast_prefix pattern
  rw [Bool.eq_iff_iff, opMatches_iff]
  exact ⟨fun hor => hor.elim hself id, .inr⟩

abbrev Longer (a b : RiskEntry) : Prop := b.op.length ≤ a.op.length

/-- A row put in its place is found before what is not longer. -/
lemma find?_orderedInsert {p : RiskEntry → Bool} (hr : p r = true) (hsorted : rows.Pairwise Longer) :
    (rows.orderedInsert Longer r).find? p = some
      (match rows.find? p with
       | some s => if r.op.length < s.op.length then s else r
       | none => r) := by
  induction rows with
  | nil => simp [hr]
  | cons a rows ih =>
    obtain ⟨hfirst, hrest⟩ := List.pairwise_cons.mp hsorted
    by_cases hra : Longer r a
    · have hshort : ∀ s, (a :: rows).find? p = some s → ¬ r.op.length < s.op.length := by
        intro s hs
        obtain rfl | hmem := List.mem_cons.mp (List.mem_of_find?_eq_some hs)
        · exact not_lt.mpr hra
        · exact not_lt.mpr ((hfirst s hmem).trans hra)
      rw [List.orderedInsert_cons_of_le _ _ hra, List.find?_cons_of_pos hr]
      cases hfind : (a :: rows).find? p with
      | none => rfl
      | some s => simp only [if_neg (hshort s hfind)]
    · rw [List.orderedInsert, if_neg hra]
      cases hpa : p a with
      | true =>
        rw [List.find?_cons_of_pos hpa, List.find?_cons_of_pos hpa]
        simp only [if_pos (not_le.mp hra)]
      | false =>
        rw [List.find?_cons_of_neg (by simp [hpa]), List.find?_cons_of_neg (by simp [hpa]), ih hrest]

lemma find?_orderedInsert_of_not {p : RiskEntry → Bool} (hr : p r = false) :
    (rows.orderedInsert Longer r).find? p = rows.find? p := by
  induction rows with
  | nil => simp [hr]
  | cons a rows ih =>
    by_cases hra : Longer r a
    · rw [List.orderedInsert_cons_of_le _ _ hra, List.find?_cons_of_neg (by simp [hr])]
    · rw [List.orderedInsert, if_neg hra, List.find?_cons, List.find?_cons, ih]

/-- The first hit among the rows with the longest first is the longest hit of the table. -/
lemma find?_longest_first (p : RiskEntry → Bool) (rows : List RiskEntry) :
    (rows.insertionSort Longer).find? p = longest (rows.filter p) := by
  induction rows with
  | nil => rfl
  | cons r rows ih =>
    rw [List.insertionSort_cons]
    cases hr : p r with
    | true =>
      have hsorted : (rows.insertionSort Longer).Pairwise Longer := by
        have htotal : Std.Total Longer := ⟨fun a b => le_total _ _⟩
        have htrans : IsTrans RiskEntry Longer := ⟨fun _ _ _ hab hbc => hbc.trans hab⟩
        exact List.pairwise_insertionSort _ _
      rw [find?_orderedInsert hr hsorted, ih, List.filter_cons_of_pos hr, longest]
      cases longest (rows.filter p) with
      | none => rfl
      | some s => exact apply_ite some _ _ _
    | false => rw [find?_orderedInsert_of_not hr, ih, List.filter_cons_of_neg (by simp [hr])]

end Index

section Classified

variable (d : PolicyDoc) (op principal : JsString)

lemma riskIndex_doc : riskIndex d.doc = .ok ⟨d.table.filter fun r => !endsWithStar r.op,
    (d.table.filter fun r => endsWithStar r.op).insertionSort Longer⟩ := by
  obtain ⟨table, htable, hread⟩ := bind_eq_ok d.readTable_eq
  obtain ⟨rows, hrows, hentries⟩ := bind_eq_ok hread
  rw [riskIndex, htable, ok_bind, hrows, ok_bind, hentries]
  rfl

lemma IsRiskClass.defined {v : Value} (h : IsRiskClass v) : v.isUndefined = false := by
  obtain rfl | rfl | rfl := h <;> rfl

/-- The index decides as the plain rules do. -/
lemma lookupRisk_doc : lookupRisk ⟨d.table.filter fun r => !endsWithStar r.op,
    (d.table.filter fun r => endsWithStar r.op).insertionSort Longer⟩ d.defaultRisk op =
      plainRisk d.table d.defaultRisk op := by
  have hexact : (d.table.filter fun r => !endsWithStar r.op).find? (fun r => r.op = op) =
      d.table.find? fun r => !endsWithStar r.op && r.op = op := by
    rw [List.find?_filter]
    refine congrArg (List.find? · d.table) (funext fun r => ?_)
    cases endsWithStar r.op <;> simp
  have hprefixes : ((d.table.filter fun r => endsWithStar r.op).insertionSort Longer).find?
      (fun r => opMatches r.op op) = longest (d.table.filter fun r => covers r.op op) := by
    rw [find?_longest_first, List.filter_filter]
    congr 1
    refine List.filter_congr fun r _ => ?_
    cases hstar : endsWithStar r.op with
    | true => rw [opMatches_starred hstar, Bool.and_true]
    | false => rw [Bool.and_false, covers, hstar, Bool.false_and]
  rw [lookupRisk, plainRisk, hexact, hprefixes]
  cases hfind : d.table.find? fun r => !endsWithStar r.op && r.op = op with
  | none => rfl
  | some r =>
    have hdefined := (d.classed r (List.mem_of_find?_eq_some hfind)).defined
    have hkeep : (some r.risk).filter (fun v => !v.isUndefined) = some r.risk := by
      rw [Option.filter_some, hdefined]
      rfl
    rw [Option.map_some, hkeep]

/-- The kept indices are those of their documents. -/
def KeptIndices (docs : DocRef → PolicyDoc) (cache : RiskIndexCache) : Prop :=
  ∀ ref idx, cache.get? ref = some idx → riskIndex (docs ref).doc = .ok idx

variable {docs : DocRef → PolicyDoc} {cache : RiskIndexCache}

lemma riskIndexCached_kept (h : KeptIndices docs cache) (ref : DocRef) :
    (riskIndexCached cache ref (docs ref).doc).1 = riskIndex (docs ref).doc ∧
      KeptIndices docs (riskIndexCached cache ref (docs ref).doc).2 := by
  unfold riskIndexCached
  cases hget : cache.get? ref with
  | some idx => exact ⟨(h ref idx hget).symm, h⟩
  | none =>
    cases hidx : riskIndex (docs ref).doc with
    | error e => exact ⟨rfl, h⟩
    | ok idx =>
      refine ⟨rfl, fun other found hfound => ?_⟩
      rw [OrderedMap.get?_set] at hfound
      split_ifs at hfound with hsame
      · rw [hsame, hidx, Option.some.inj hfound]
      · exact h other found hfound

lemma classifyCached_kept (h : KeptIndices docs cache) (ref : DocRef) (op : JsString) :
    (classifyCached docs cache ref op).1 = .ok (plainRisk (docs ref).table (docs ref).defaultRisk op) ∧
      KeptIndices docs (classifyCached docs cache ref op).2 := by
  obtain ⟨hidx, hkept⟩ := riskIndexCached_kept h ref
  refine ⟨?_, hkept⟩
  change (riskIndexCached cache ref (docs ref).doc).1.map _ = _
  rw [hidx, riskIndex_doc]
  exact congrArg Except.ok (lookupRisk_doc (docs ref) op)

lemma kept_cacheAfter (docs : DocRef → PolicyDoc) (history : List (DocRef × JsString)) :
    KeptIndices docs (cacheAfter docs history) := by
  induction history using List.reverseRecOn with
  | nil => exact fun ref idx hget => by cases hget
  | append_singleton history call ih =>
    rw [cacheAfter, List.foldl_concat]
    exact (classifyCached_kept ih call.1 call.2).2

lemma classifyRisk_doc : classifyRisk d.doc op = .ok (plainRisk d.table d.defaultRisk op) := by
  rw [classifyRisk, riskIndex_doc]
  exact congrArg Except.ok (lookupRisk_doc d op)

end Classified

section Denials

variable {rule : Value} {principal op : JsString}

/-- A rule names the principal and the op, as far as it names any. -/
def RuleApplies (rule : Value) (principal op : JsString) : Prop :=
  ∃ m, matchOf rule = .ok m ∧
    (property m "principal" = .ok .undefined ∨ property m "principal" = .ok (.string principal)) ∧
    (optionalProperty m "op" = .undefined ∨
      ∃ pattern, optionalProperty m "op" = .string pattern ∧ (pattern = op ∨ covers pattern op = true))

def IsDeny (rule : Value) : Prop := property rule "decision" = .ok (jsText "deny")

def DeniedBy (answer : Except String Value) : Prop :=
  ∃ action, answer = .ok action ∧ optionalProperty action "decision" = jsText "deny"

lemma ruleMatches_total (h : IsRule rule) : ∃ found, ruleMatches rule principal op = .ok found ∧
    (RuleApplies rule principal op → found = true) := by
  obtain ⟨_, m, hm, ⟨who, hwho, htext⟩, hop⟩ := h
  have hmatchesOp : ∃ found, ruleMatches.matchesOp op m = .ok found ∧
      ((optionalProperty m "op" = .undefined ∨ ∃ pattern, optionalProperty m "op" = .string pattern ∧
        (pattern = op ∨ covers pattern op = true)) → found = true) := by
    unfold ruleMatches.matchesOp
    obtain hop | ⟨pattern, hop⟩ := hop
    · rw [hop]
      exact ⟨true, rfl, fun _ => rfl⟩
    · rw [hop]
      refine ⟨opMatches pattern op, rfl, ?_⟩
      rintro (habsent | ⟨pattern', heq, hcovers⟩)
      · cases habsent
      · cases heq
        exact opMatches_iff.mpr hcovers
  obtain ⟨found, hfound, htrue⟩ := hmatchesOp
  have hread : ∀ {m' : Value}, matchOf rule = .ok m' → m' = m := fun h' => Except.ok.inj (h'.symm.trans hm)
  rw [ruleMatches, hm, ok_bind, hwho, ok_bind]
  obtain rfl | ⟨s, rfl⟩ := htext
  · refine ⟨found, hfound, ?_⟩
    rintro ⟨m', hm', _, happlies⟩
    obtain rfl := hread hm'
    exact htrue happlies
  · by_cases hs : s = principal
    · refine ⟨found, by simpa only [if_pos hs] using hfound, ?_⟩
      rintro ⟨m', hm', _, happlies⟩
      obtain rfl := hread hm'
      exact htrue happlies
    · refine ⟨false, by simp only [if_neg hs]; rfl, ?_⟩
      rintro ⟨m', hm', hwho' | hwho', _⟩
      all_goals
        obtain rfl := hread hm'
        cases hwho.symm.trans hwho'
      exact absurd rfl hs

/-- A deny row that applies is found, wherever it stands. -/
lemma firstMatch_applies {rules : List Value} (hruled : ∀ r ∈ rules, IsRule r) (hmem : rule ∈ rules)
    (hdeny : IsDeny rule) (happlies : RuleApplies rule principal op) :
    ∃ found, firstMatch true principal op rules = .ok (some found) := by
  induction rules with
  | nil => exact absurd hmem List.not_mem_nil
  | cons r rest ih =>
    obtain ⟨hr, hrest⟩ := List.forall_mem_cons.mp hruled
    obtain ⟨d, hd⟩ := hr.1
    obtain ⟨found, hfound, htrue⟩ : ∃ found, ruleMatches r principal op = .ok found ∧
        (RuleApplies r principal op → found = true) := ruleMatches_total hr
    rw [firstMatch, hd, ok_bind]
    obtain rfl | hlater := List.mem_cons.mp hmem
    · have hd' : Value.string d = jsText "deny" := Except.ok.inj (hd.symm.trans hdeny)
      rw [if_pos (by rw [hd']; rfl), hfound, htrue happlies, ok_bind, if_pos rfl]
      exact ⟨rule, rfl⟩
    · split_ifs
      · rw [hfound, ok_bind]
        split_ifs
        · exact ⟨r, rfl⟩
        · exact ih hrest hlater
      · exact ih hrest hlater

lemma denied_of_applies (d : PolicyDoc) (hmem : rule ∈ d.rules) (hdeny : IsDeny rule)
    (happlies : RuleApplies rule principal op) : DeniedBy (evalPolicy d.doc principal op) := by
  obtain ⟨found, hfound⟩ := firstMatch_applies d.ruled hmem hdeny happlies
  obtain ⟨ruleTable, htable, hrules⟩ := bind_eq_ok d.readRules_eq
  rw [evalPolicy, htable, ok_bind, hrules, ok_bind, hfound, ok_bind]
  simp only [classifyRisk_doc, ok_bind]
  exact ⟨_, rfl, rfl⟩

/-- The compiled index decides as the plain rules do, after any history of classifications, and a deny row denies in
every table that holds it. -/
theorem policy_exact (docs : DocRef → PolicyDoc) :
    (∀ history ref op, (classifyCached docs (cacheAfter docs history) ref op).1 =
      .ok (plainRisk (docs ref).table (docs ref).defaultRisk op)) ∧
    ∀ ref principal op, ∀ rule ∈ (docs ref).rules, IsDeny rule → RuleApplies rule principal op →
      DeniedBy (evalPolicy (docs ref).doc principal op) ∧
        ∀ other, rule ∈ (docs other).rules → DeniedBy (evalPolicy (docs other).doc principal op) := by
  refine ⟨fun history ref op => (classifyCached_kept (kept_cacheAfter docs history) ref op).1, ?_⟩
  intro ref principal op rule hmem hdeny happlies
  exact ⟨denied_of_applies _ hmem hdeny happlies, fun other hother => denied_of_applies _ hother hdeny happlies⟩

section Attacker

def attackerRow : Value :=
  policyRule "principal" "omega.attacker" "deny" "principal deny-listed (adversarial fixture, Ω0 runtime suite)"

/-- A document of one pattern and one deny row. -/
def attackerDoc : PolicyDoc where
  doc := .object [(ofText "riskTable", .array [riskRow "vault.*" "MUTATION"]), (ofText "rules", .array [attackerRow])]
  table := [⟨ofText "vault.*", jsText "MUTATION"⟩]
  rules := [attackerRow]
  readTable_eq := rfl
  readRules_eq := rfl
  classed := by
    intro r hr
    rw [List.mem_singleton.mp hr]
    exact .inr (.inl rfl)
  ruled := by
    intro rule hrule
    rw [List.mem_singleton.mp hrule]
    exact ⟨⟨_, rfl⟩, _, rfl, ⟨_, rfl, .inr ⟨_, rfl⟩⟩, .inl rfl⟩

theorem attacker_denied :
    (classifyCached (fun _ => attackerDoc) (cacheAfter (fun _ => attackerDoc) [(0, ofText "note.write@1")]) 0
      (ofText "vault.get@1")).1 = .ok (jsText "MUTATION") ∧
      DeniedBy (evalPolicy attackerDoc.doc (ofText "omega.attacker") (ofText "vault.get@1")) := by
  obtain ⟨hclass, hdeny⟩ := policy_exact fun _ => attackerDoc
  refine ⟨hclass _ 0 _, (hdeny 0 _ (ofText "vault.get@1") attackerRow (List.mem_singleton.mpr rfl) rfl ?_).1⟩
  exact ⟨_, rfl, .inr rfl, .inl rfl⟩

end Attacker

end Denials

end VivimOmega.Law

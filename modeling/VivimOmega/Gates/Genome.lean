import VivimOmega.Library.Elimination
import VivimOmega.Library.Json.Template

/-! The layer registry and the check of its dependencies. -/

namespace VivimOmega.Gates

open Library Library.Json Library.Elimination

section Registry

def legalLayerStatuses : List JsString :=
  ["implemented", "external-assumed", "ratified-unimplemented", "queued"].map ofText

structure LayerEntry where
  id : JsString
  status : JsString
  treeId : Option Number
  falsifier : Option JsString
  dependsOn : List JsString
  evidence : Option JsString
  deriving DecidableEq

/-- A layer as the file has it: the id is empty where there is none, and `dependsOn` is `none` where it is no array. -/
structure RawLayer where
  id : JsString
  status : JsString
  treeId : Option Number
  falsifier : Option JsString
  dependsOn : Option (List JsString)
  evidence : Option JsString

structure RawRegistry where
  layers : Option (List RawLayer)
  lineageNote : Option JsString

structure LayerRegistry where
  layers : List LayerEntry
  deriving DecidableEq

def isInteger : Number → Bool
  | .nan => false
  | .infinity _ => false
  | .zero => true
  | .finite _ d => decide ((d.digits.length : ℤ) ≤ d.point)

def isCapital (u : UInt16) : Bool := decide (0x41 ≤ u) && decide (u ≤ 0x5A)

def isFalsifierUnit (u : UInt16) : Bool := isCapital u || (decide (0x30 ≤ u) && decide (u ≤ 0x39)) || u == 0x2D

def isFalsifier (s : JsString) : Bool :=
  decide (s.take 2 = ofText "F-") && (s.drop 2).head?.any isCapital && (s.drop 3).all isFalsifierUnit

def layerIssues (seen : List JsString) (l : RawLayer) : List JsString :=
  let named := ofText "layer " ++ l.id
  (if l.id = [] ∨ l.id ∈ seen then [ofText "layer id \"" ++ l.id ++ ofText "\" missing or duplicate"] else []) ++
  (if l.status ∉ legalLayerStatuses then [named ++ ofText ": illegal status \"" ++ l.status ++ ofText "\""] else []) ++
  (if l.treeId.any (!isInteger ·) then [named ++ ofText ": treeId must be an integer or null"] else []) ++
  ((l.falsifier.filter (!isFalsifier ·)).toList.map fun f =>
    named ++ ofText ": falsifier \"" ++ f ++ ofText "\" is not a named falsifier id (F-XXXX)") ++
  (if l.dependsOn = none then [named ++ ofText ": dependsOn must be an array"] else []) ++
  ((l.evidence.filter (· ∉ ["record", "program"].map ofText)).toList.map fun e =>
    named ++ ofText ": evidence kind \"" ++ e ++ ofText "\" illegal (record | program)")

def layersIssues : List JsString → List RawLayer → List JsString
  | _, [] => []
  | seen, l :: rest => layerIssues seen l ++ layersIssues (l.id :: seen) rest

def RawLayer.entry (l : RawLayer) : Option LayerEntry :=
  l.dependsOn.map fun dependsOn => ⟨l.id, l.status, l.treeId, l.falsifier, dependsOn, l.evidence⟩

def shapeIssues (r : RawRegistry) : List JsString :=
  (if r.layers.all (· matches []) then [ofText "registry has no layers array"] else []) ++
  (if r.lineageNote = none then [ofText "registry lineage.note missing"] else [])

/-- The registry behind what `JSON.parse` answers: its value, or the message that it throws. -/
def parseLayerRegistry (raw : Except JsString RawRegistry) : Option LayerRegistry × List JsString :=
  match raw with
  | .error message => (none, [ofText "genome/layers.json is not valid JSON: " ++ message.take 120])
  | .ok r =>
    if shapeIssues r ≠ [] then (none, shapeIssues r)
    else
      let layers := r.layers.getD []
      let issues := layersIssues [] layers
      (if issues = [] then some ⟨layers.filterMap RawLayer.entry⟩ else none, issues)

variable {l : RawLayer} {seen : List JsString} {raw : Except JsString RawRegistry} {registry : LayerRegistry}

lemma layerIssues_nil (h : layerIssues seen l = []) : l.id ∉ seen ∧ ∃ e, l.entry = some e ∧ e.id = l.id := by
  simp only [layerIssues, List.append_eq_nil_iff] at h
  obtain ⟨⟨⟨⟨⟨hid, -⟩, -⟩, -⟩, hdeps⟩, -⟩ := h
  constructor
  · intro hseen
    simp [hseen] at hid
  · cases hd : l.dependsOn with
    | none => simp [hd] at hdeps
    | some dependsOn => exact ⟨_, by rw [RawLayer.entry, hd]; rfl, rfl⟩

lemma layersIssues_nil {ls : List RawLayer} (h : layersIssues seen ls = []) :
    ((ls.filterMap RawLayer.entry).map LayerEntry.id).Nodup ∧
      ∀ a ∈ (ls.filterMap RawLayer.entry).map LayerEntry.id, a ∉ seen := by
  induction ls generalizing seen with
  | nil => simp
  | cons l ls ih =>
    rw [layersIssues, List.append_eq_nil_iff] at h
    obtain ⟨hseen, e, he, hid⟩ := layerIssues_nil h.1
    obtain ⟨hnodup, hrest⟩ := ih h.2
    rw [List.filterMap_cons_some he, List.map_cons, hid, List.nodup_cons, List.forall_mem_cons]
    refine ⟨⟨fun hmem => ?_, hnodup⟩, hseen, fun a ha hmem => ?_⟩
    · exact hrest _ hmem (List.mem_cons_self ..)
    · exact hrest a ha (List.mem_cons_of_mem _ hmem)

/-- No two layers of an accepted registry have one id. -/
lemma accepted_nodup (h : (parseLayerRegistry raw).1 = some registry) : (registry.layers.map LayerEntry.id).Nodup := by
  unfold parseLayerRegistry at h
  split at h
  · cases h
  · split_ifs at h with hshape
    simp only [Option.ite_none_right_eq_some, Option.some.injEq] at h
    obtain ⟨hissues, rfl⟩ := h
    exact (layersIssues_nil hissues).1

end Registry

section Dag

inductive DagIssue
  | unknown (layer dependency : JsString)
  | cycle (layers : List JsString)
  deriving DecidableEq

def DagIssue.text : DagIssue → JsString
  | .unknown layer dependency => ofText "layer " ++ layer ++ ofText " depends on unknown layer \"" ++ dependency ++ ofText "\""
  | .cycle layers => ofText "layer dependency cycle involving: " ++ (layers.intersperse (ofText ", ")).flatten

variable (layers : List LayerEntry)

def layerIds : List JsString := layers.map LayerEntry.id

def unknownIssues : List DagIssue :=
  layers.flatMap fun l => (l.dependsOn.filter (· ∉ layerIds layers)).map (.unknown l.id)

/-- `none` is a queue that does not run empty. -/
def checkLayerDag : Option (List DagIssue) :=
  (drain LayerEntry.id LayerEntry.dependsOn layers (layers.length + 1)
    (start LayerEntry.id LayerEntry.dependsOn layers)).map fun order =>
      unknownIssues layers ++ if order.length ≠ layers.length
        then [.cycle ((layers.filter (·.id ∉ order)).map LayerEntry.id)] else []

/-- A dependency between known layers. -/
def DependsOn : JsString → JsString → Prop := Needs LayerEntry.id LayerEntry.dependsOn layers

/-- On a cycle, or depending on one. -/
def BehindCycle (a : JsString) : Prop :=
  ∃ b, Relation.ReflTransGen (DependsOn layers) a b ∧ Relation.TransGen (DependsOn layers) b b

/-- The issues are the unknown dependencies, and the layers behind a cycle where there is one. -/
structure DagExact (issues : List DagIssue) : Prop where
  unknown : ∀ a d, .unknown a d ∈ issues ↔ ∃ l ∈ layers, l.id = a ∧ d ∈ l.dependsOn ∧ d ∉ layerIds layers
  cycle : (∃ names, .cycle names ∈ issues) ↔ ∃ a, Relation.TransGen (DependsOn layers) a a
  names : ∀ names, .cycle names ∈ issues → ∀ a, a ∈ names ↔ BehindCycle layers a

/-- A layer that names a known layer twice. -/
def Repeating (l : LayerEntry) : Prop := ¬ (known LayerEntry.id LayerEntry.dependsOn layers l).Nodup

def RepeatsBehindCycles : Prop := ∀ l ∈ layers, Repeating layers l → BehindCycle layers l.id

variable {layers} {a b : JsString} {order : List JsString} {raw : Except JsString RawRegistry} {registry : LayerRegistry}

lemma dependsOn_left (h : DependsOn layers a b) : a ∈ layerIds layers := by
  obtain ⟨l, hl, rfl, -⟩ := h
  exact List.mem_map_of_mem hl

lemma behindCycle_layer (h : BehindCycle layers a) : a ∈ layerIds layers := by
  obtain ⟨b, hreach, hcycle⟩ := h
  rcases hreach.cases_head with rfl | ⟨c, hstep, -⟩
  · obtain ⟨c, hstep, -⟩ := Relation.TransGen.head'_iff.mp hcycle
    exact dependsOn_left hstep
  · exact dependsOn_left hstep

lemma mem_unknownIssues {d : JsString} :
    .unknown a d ∈ unknownIssues layers ↔ ∃ l ∈ layers, l.id = a ∧ d ∈ l.dependsOn ∧ d ∉ layerIds layers := by
  simp only [unknownIssues, List.mem_flatMap, List.mem_map, List.mem_filter, decide_eq_true_eq, DagIssue.unknown.injEq]
  constructor
  · rintro ⟨l, hl, x, ⟨hx, hknown⟩, hid, rfl⟩
    exact ⟨l, hl, hid, hx, hknown⟩
  · rintro ⟨l, hl, hid, hd, hknown⟩
    exact ⟨l, hl, d, ⟨hd, hknown⟩, hid, rfl⟩

lemma cycle_not_unknown (names : List JsString) : .cycle names ∉ unknownIssues layers := by
  simp [unknownIssues]

/-- The layers that a check leaves over: behind a cycle, or behind a layer that repeats itself. -/
def LeftOver (layers : List LayerEntry) (a : JsString) : Prop :=
  ∃ b, Relation.ReflTransGen (DependsOn layers) a b ∧ Knotted LayerEntry.id LayerEntry.dependsOn layers b

lemma checkLayerDag_eq (hnodup : (layerIds layers).Nodup) :
    ∃ names : List JsString, (∀ a, a ∈ names ↔ a ∈ layerIds layers ∧ LeftOver layers a) ∧
      checkLayerDag layers = some (unknownIssues layers ++ if names ≠ [] then [.cycle names] else []) := by
  obtain ⟨order, hdrain, hdrained⟩ := drain_start LayerEntry.dependsOn hnodup
  have hnames : ∀ a, a ∈ (layers.filter (·.id ∉ order)).map LayerEntry.id ↔ a ∈ layerIds layers ∧ LeftOver layers a := by
    intro a
    have hleft : a ∈ layerIds layers → (a ∉ order ↔ LeftOver layers a) := by
      intro ha
      rw [hdrained.cleared]
      exact not_cleared_iff hnodup ha
    simp only [List.mem_map, List.mem_filter, decide_eq_true_eq]
    constructor
    · rintro ⟨l, ⟨hl, hout⟩, rfl⟩
      have hid : l.id ∈ layerIds layers := List.mem_map_of_mem hl
      exact ⟨hid, (hleft hid).mp hout⟩
    · rintro ⟨ha, hover⟩
      obtain ⟨l, hl, rfl⟩ := List.mem_map.mp ha
      exact ⟨l, ⟨hl, (hleft ha).mpr hover⟩, rfl⟩
  refine ⟨_, hnames, ?_⟩
  have hempty : order.length ≠ layers.length ↔ (layers.filter (·.id ∉ order)).map LayerEntry.id ≠ [] := by
    rw [ne_eq, all_cleared_iff hnodup hdrained]
    simp [List.filter_eq_nil_iff]
  rw [checkLayerDag, hdrain, Option.map_some]
  simp only [hempty]

lemma leftOver_of_behind (h : BehindCycle layers a) : LeftOver layers a := by
  obtain ⟨b, hreach, hcycle⟩ := h
  exact ⟨b, hreach, .inl hcycle⟩

/-- The layers left over are those behind a cycle, unless a layer repeats itself in front of none. -/
lemma behind_of_leftOver (h : RepeatsBehindCycles layers) (ha : LeftOver layers a) : BehindCycle layers a := by
  obtain ⟨b, hreach, hcycle | ⟨l, hl, rfl, hrepeat⟩⟩ := ha
  · exact ⟨b, hreach, hcycle⟩
  · obtain ⟨c, hback, hcycle⟩ := h l hl hrepeat
    exact ⟨c, hreach.trans hback, hcycle⟩

lemma dagExact_of_repeats (hnodup : (layerIds layers).Nodup) (h : RepeatsBehindCycles layers) {issues : List DagIssue}
    (hissues : checkLayerDag layers = some issues) : DagExact layers issues := by
  obtain ⟨names, hnames, heq⟩ := checkLayerDag_eq hnodup
  obtain rfl := Option.some.inj (heq.symm.trans hissues)
  have hbehind : ∀ a, a ∈ names ↔ BehindCycle layers a := by
    intro a
    rw [hnames]
    exact ⟨fun hover => behind_of_leftOver h hover.2, fun ha => ⟨behindCycle_layer ha, leftOver_of_behind ha⟩⟩
  have hcycle : ∀ other, .cycle other ∈ unknownIssues layers ++ (if names ≠ [] then [.cycle names] else []) ↔
      names ≠ [] ∧ other = names := by
    intro other
    rw [List.mem_append, or_iff_right (cycle_not_unknown other)]
    split_ifs with hnil <;> simp [hnil]
  refine ⟨?_, ?_, ?_⟩
  · intro a d
    rw [List.mem_append, ← mem_unknownIssues]
    refine or_iff_left ?_
    split_ifs <;> simp
  · constructor
    · rintro ⟨other, hother⟩
      obtain ⟨a, ha⟩ := List.exists_mem_of_ne_nil names ((hcycle other).mp hother).1
      obtain ⟨b, -, hb⟩ := (hbehind a).mp ha
      exact ⟨b, hb⟩
    · rintro ⟨a, ha⟩
      have hmem := (hbehind a).mpr ⟨a, .refl, ha⟩
      exact ⟨names, (hcycle names).mpr ⟨List.ne_nil_of_mem hmem, rfl⟩⟩
  · intro other hother
    rw [((hcycle other).mp hother).2]
    exact hbehind

lemma repeats_of_dagExact (hnodup : (layerIds layers).Nodup) {issues : List DagIssue}
    (hissues : checkLayerDag layers = some issues) (h : DagExact layers issues) : RepeatsBehindCycles layers := by
  obtain ⟨names, hnames, heq⟩ := checkLayerDag_eq hnodup
  obtain rfl := Option.some.inj (heq.symm.trans hissues)
  intro l hl hrepeat
  have hmem : l.id ∈ names := (hnames l.id).mpr ⟨List.mem_map_of_mem hl, l.id, .refl, .inr ⟨l, hl, rfl, hrepeat⟩⟩
  refine (h.names names ?_ l.id).mp hmem
  rw [if_pos (List.ne_nil_of_mem hmem)]
  exact List.mem_append_right _ (List.mem_singleton_self _)

/-- The check ends, and it is exact where every layer that names a known one twice is behind a cycle. -/
theorem layer_dag_exact_iff (h : (parseLayerRegistry raw).1 = some registry) :
    ∃ issues, checkLayerDag registry.layers = some issues ∧
      (DagExact registry.layers issues ↔ RepeatsBehindCycles registry.layers) := by
  have hnodup := accepted_nodup h
  obtain ⟨names, -, heq⟩ := checkLayerDag_eq hnodup
  exact ⟨_, heq, repeats_of_dagExact hnodup heq, fun hrepeats => dagExact_of_repeats hnodup hrepeats heq⟩

def rawLayer (id : String) (dependsOn : List String) : RawLayer :=
  ⟨ofText id, ofText "queued", none, none, some (dependsOn.map ofText), none⟩

def rawRegistry (layers : List RawLayer) : Except JsString RawRegistry := .ok ⟨some layers, some (ofText "Ω")⟩

def queuedLayer (id : String) (dependsOn : List String) : LayerEntry :=
  ⟨ofText id, ofText "queued", none, none, dependsOn.map ofText, none⟩

theorem layer_dag_exact_iff_self : ∃ issues, checkLayerDag [queuedLayer "Ω" ["Ω", "Ω"]] = some issues ∧
    (DagExact [queuedLayer "Ω" ["Ω", "Ω"]] issues ↔ RepeatsBehindCycles [queuedLayer "Ω" ["Ω", "Ω"]]) :=
  @layer_dag_exact_iff (rawRegistry [rawLayer "Ω" ["Ω", "Ω"]]) ⟨[queuedLayer "Ω" ["Ω", "Ω"]]⟩ (by decide)

/-- The layer that names the other twice is taken for a cycle. -/
theorem repeated_dependency_reported :
    (parseLayerRegistry (rawRegistry [rawLayer "A" [], rawLayer "B" ["A", "A"]])).1 =
      some ⟨[queuedLayer "A" [], queuedLayer "B" ["A", "A"]]⟩ ∧
    ∃ issues, checkLayerDag [queuedLayer "A" [], queuedLayer "B" ["A", "A"]] = some issues ∧
      .cycle [ofText "B"] ∈ issues ∧
      ∀ a, ¬ Relation.TransGen (DependsOn [queuedLayer "A" [], queuedLayer "B" ["A", "A"]]) a a := by
  refine ⟨by decide, [.cycle [ofText "B"]], by decide, List.mem_singleton_self _, ?_⟩
  have honly : ∀ a b, DependsOn [queuedLayer "A" [], queuedLayer "B" ["A", "A"]] a b → a = ofText "B" ∧ b = ofText "A" := by
    rintro a b ⟨l, hl, rfl, hb⟩
    have hb' := (mem_known.mp hb).1
    rcases List.mem_pair.mp hl with rfl | rfl
    · cases hb'
    · refine ⟨rfl, ?_⟩
      simpa [queuedLayer] using hb'
  intro a ha
  obtain ⟨b, hstep, -⟩ := Relation.TransGen.head'_iff.mp ha
  obtain ⟨c, -, hlast⟩ := Relation.TransGen.tail'_iff.mp ha
  have hne : ofText "B" ≠ ofText "A" := by decide
  exact hne ((honly a b hstep).1.symm.trans (honly c a hlast).2)

end Dag

end VivimOmega.Gates

import VivimOmega.Gates.Genome

/-! The orchestration plan: what is ready, what is blocked, and how the layers get built by it. -/

namespace VivimOmega.Gates

open Library Library.Json Library.Elimination

section Plan

/-- A layer of the genome: the registry's entry with the status of its record. -/
structure GenomeLayer where
  entry : LayerEntry
  recordStatus : Option JsString

def GenomeLayer.id (l : GenomeLayer) : JsString := l.entry.id

def GenomeLayer.evidenceKind (l : GenomeLayer) : JsString := l.entry.evidence.getD (ofText "record")

inductive PlanBucket
  | done
  | inFlight
  | verifyQueue
  | buildQueue
  | specQueue
  | blocked
  deriving DecidableEq

structure PlanNode where
  id : JsString
  status : JsString
  recordStatus : Option JsString
  bucket : PlanBucket
  unsatisfied : List JsString
  reason : JsString

structure OrchestrationPlan where
  buckets : PlanBucket → List PlanNode
  counts : PlanBucket → ℕ

def isImplemented (l : GenomeLayer) : Bool := l.entry.status = ofText "implemented"

def isAssumed (l : GenomeLayer) : Bool := l.entry.status = ofText "external-assumed"

variable (layers : List GenomeLayer)

/-- The last layer of an id is the one that the map of the source holds. -/
def satisfies (dep : JsString) : Bool :=
  match layers.reverse.find? (·.id = dep) with
  | some d => isImplemented d || isAssumed d
  | none => false

def unsatisfied (l : GenomeLayer) : List JsString := l.entry.dependsOn.filter (!satisfies layers ·)

def bucketOf (l : GenomeLayer) : PlanBucket :=
  if unsatisfied layers l ≠ [] then .blocked
  else if isImplemented l && l.evidenceKind = ofText "program" then .done
  else if isImplemented l && l.recordStatus = some (ofText "RATIFIED") then .done
  else if isImplemented l then .inFlight
  else if isAssumed l then .verifyQueue
  else if l.entry.status = ofText "ratified-unimplemented" then .buildQueue
  else .specQueue

def reasonOf (l : GenomeLayer) : JsString :=
  if unsatisfied layers l ≠ [] then ofText "waiting on " ++ ((unsatisfied layers l).intersperse (ofText ", ")).flatten
  else if isImplemented l && l.evidenceKind = ofText "program" then
    ofText "program evidence — the built program is its own witness (no single record, no flip to await)"
  else if isImplemented l && l.recordStatus = some (ofText "RATIFIED") then ofText "tree evidence + falsifiers green"
  else if isImplemented l then
    ofText "record " ++ l.recordStatus.getD (ofText "PROPOSED") ++ ofText " — the ratify ceremony owns the flip"
  else if isAssumed l then
    ofText "paper lineage, no tree evidence — port and verify against the spec falsifiers"
  else if l.entry.status = ofText "ratified-unimplemented" then
    ofText "deps satisfied and the decision is ratified — ready to build"
  else ofText "deps satisfied — write the spec (upgrade doc + falsifiers) before building"

def planNode (l : GenomeLayer) : PlanNode :=
  ⟨l.id, l.entry.status, l.recordStatus, bucketOf layers l, unsatisfied layers l, reasonOf layers l⟩

def planFromGenome : OrchestrationPlan where
  buckets b := (layers.map (planNode layers)).filter (·.bucket = b)
  counts b := ((layers.map (planNode layers)).filter (·.bucket = b)).length

end Plan

section Building

/-- A ready layer is worked on: its spec is written and ratified, or it is built. Its dependencies stay. -/
inductive Advance : List GenomeLayer → List GenomeLayer → Prop
  | spec (before after : List GenomeLayer) (l l' : GenomeLayer) :
      bucketOf (before ++ l :: after) l = .specQueue → l'.id = l.id → l'.entry.dependsOn = l.entry.dependsOn →
      l'.entry.status = ofText "ratified-unimplemented" → Advance (before ++ l :: after) (before ++ l' :: after)
  | build (before after : List GenomeLayer) (l l' : GenomeLayer) :
      bucketOf (before ++ l :: after) l = .buildQueue → l'.id = l.id → l'.entry.dependsOn = l.entry.dependsOn →
      isImplemented l' = true → Advance (before ++ l :: after) (before ++ l' :: after)

def work (l : GenomeLayer) : ℕ :=
  if isImplemented l || isAssumed l then 0
  else if l.entry.status = ofText "ratified-unimplemented" then 1
  else 2

def totalWork (layers : List GenomeLayer) : ℕ := (layers.map work).sum

/-- What the check of the dependencies looks at. -/
def shape (layers : List GenomeLayer) : List (JsString × List JsString) := layers.map fun l => (l.id, l.entry.dependsOn)

/-- Ids are distinct, dependencies are known, and none is behind a cycle. -/
structure WellOrdered (graph : List (JsString × List JsString)) : Prop where
  distinct : (graph.map Prod.fst).Nodup
  known : ∀ p ∈ graph, ∀ d ∈ p.2, d ∈ graph.map Prod.fst
  cleared : ∀ p ∈ graph, Cleared Prod.fst Prod.snd graph p.1

variable {layers layers' : List GenomeLayer} {l : GenomeLayer} {d : JsString}

lemma shape_ids : (shape layers).map Prod.fst = layers.map GenomeLayer.id := by
  simp [shape, Function.comp_def]

lemma Advance.shape (h : Advance layers layers') : shape layers' = shape layers := by
  cases h with
  | spec before after l l' _ hid hdeps _ => simp [Gates.shape, hid, hdeps]
  | build before after l l' _ hid hdeps _ => simp [Gates.shape, hid, hdeps]

lemma cleared_shape {a : JsString}
    (h : Cleared LayerEntry.id LayerEntry.dependsOn (layers.map GenomeLayer.entry) a) :
    Cleared Prod.fst Prod.snd (shape layers) a := by
  induction h with
  | clear e he hnodup hneeds ih =>
    obtain ⟨l, hl, rfl⟩ := List.mem_map.mp he
    have hkeys : (layers.map GenomeLayer.entry).map LayerEntry.id = (shape layers).map Prod.fst := by
      simp [shape, Function.comp_def, GenomeLayer.id]
    have hknown : known Prod.fst Prod.snd (shape layers) (l.id, l.entry.dependsOn) =
        known LayerEntry.id LayerEntry.dependsOn (layers.map GenomeLayer.entry) l.entry := by
      apply List.filter_congr
      intro b _
      simp [hkeys]
    refine .clear (l.id, l.entry.dependsOn) (List.mem_map_of_mem hl) ?_ ?_
    · rw [hknown]
      exact hnodup
    · intro b hb
      rw [hknown] at hb
      exact ih b hb

/-- A registry that the check has nothing to say about. -/
lemma wellOrdered_of_check (hnodup : (layers.map GenomeLayer.id).Nodup)
    (hcheck : checkLayerDag (layers.map GenomeLayer.entry) = some []) : WellOrdered (shape layers) := by
  have hids : (layerIds (layers.map GenomeLayer.entry)).Nodup := by
    rw [layerIds, List.map_map]
    exact hnodup
  obtain ⟨names, hnames, heq⟩ := checkLayerDag_eq hids
  obtain ⟨hunknown, hcycle⟩ := List.append_eq_nil_iff.mp (Option.some.inj (heq.symm.trans hcheck))
  constructor
  · rwa [shape_ids]
  · intro p hp d hd
    obtain ⟨l, hl, rfl⟩ := List.mem_map.mp hp
    by_contra hno
    have hmem : .unknown l.id d ∈ unknownIssues (layers.map GenomeLayer.entry) := by
      refine mem_unknownIssues.mpr ⟨l.entry, List.mem_map_of_mem hl, rfl, hd, ?_⟩
      simpa [shape_ids, layerIds, Function.comp_def, GenomeLayer.id] using hno
    rw [hunknown] at hmem
    cases hmem
  · intro p hp
    obtain ⟨l, hl, rfl⟩ := List.mem_map.mp hp
    apply cleared_shape
    by_contra hnot
    have hid : l.entry.id ∈ (layers.map GenomeLayer.entry).map LayerEntry.id :=
      List.mem_map_of_mem (List.mem_map_of_mem hl)
    have hleft : l.entry.id ∈ names := (hnames _).mpr ⟨hid, (not_cleared_iff hids hid).mp hnot⟩
    have hnone : names = [] := by
      by_contra hsome
      simp [hsome] at hcycle
    rw [hnone] at hleft
    cases hleft

def Settled (l : GenomeLayer) : Prop := (isImplemented l || isAssumed l) = true

lemma satisfies_iff (hnodup : (layers.map GenomeLayer.id).Nodup) (hl : l ∈ layers) :
    satisfies layers l.id = true ↔ Settled l := by
  obtain ⟨l', hfind⟩ : ∃ l', layers.reverse.find? (·.id = l.id) = some l' := by
    apply Option.isSome_iff_exists.mp
    rw [List.find?_isSome]
    exact ⟨l, List.mem_reverse.mpr hl, by simp⟩
  have hid : l'.id = l.id := by simpa using List.find?_some hfind
  have hmem : l' ∈ layers := List.mem_reverse.mp (List.mem_of_find?_eq_some hfind)
  obtain rfl := List.inj_on_of_nodup_map hnodup hmem hl hid
  rw [satisfies, hfind]
  rfl

lemma bucket_blocked : bucketOf layers l = .blocked ↔ unsatisfied layers l ≠ [] := by
  unfold bucketOf
  split_ifs <;> simp_all

lemma bucket_queue (hready : unsatisfied layers l = []) (hopen : ¬ Settled l) :
    bucketOf layers l = .buildQueue ∧ work l = 1 ∨ bucketOf layers l = .specQueue ∧ work l = 2 := by
  simp only [Settled, Bool.or_eq_true, not_or, Bool.not_eq_true] at hopen
  by_cases hstatus : l.entry.status = ofText "ratified-unimplemented" <;> simp [bucketOf, work, hready, hopen, hstatus]

/-- What a queue holds is ready, and is not settled. -/
lemma open_of_queue (h : bucketOf layers l = .buildQueue ∨ bucketOf layers l = .specQueue) :
    unsatisfied layers l = [] ∧ ¬ Settled l := by
  unfold bucketOf at h
  unfold Settled
  split_ifs at h <;> simp_all

/-- Behind every layer that is not settled there is one that is ready. -/
lemma ready_behind (hgraph : WellOrdered (shape layers)) {a : JsString} (h : Cleared Prod.fst Prod.snd (shape layers) a) :
    (∃ l ∈ layers, l.id = a ∧ ¬ Settled l) → ∃ l ∈ layers, unsatisfied layers l = [] ∧ ¬ Settled l := by
  have hnodup : (layers.map GenomeLayer.id).Nodup := by
    rw [← shape_ids]
    exact hgraph.distinct
  induction h with
  | clear p hp _ _ ih =>
    rintro ⟨l, hl, hid, hopen⟩
    by_cases hready : unsatisfied layers l = []
    · exact ⟨l, hl, hready, hopen⟩
    · obtain ⟨d, hd⟩ := List.exists_mem_of_ne_nil _ hready
      obtain ⟨hdep, hunsatisfied⟩ := List.mem_filter.mp hd
      obtain ⟨l', hl', rfl⟩ := List.mem_map.mp hp
      obtain rfl := List.inj_on_of_nodup_map hnodup hl hl' hid
      have hknown := hgraph.known _ hp d hdep
      apply ih d (mem_known.mpr ⟨hdep, hknown⟩)
      rw [shape_ids] at hknown
      obtain ⟨m, hm, rfl⟩ := List.mem_map.mp hknown
      refine ⟨m, hm, rfl, fun hsettled => ?_⟩
      rw [(satisfies_iff hnodup hm).mpr hsettled] at hunsatisfied
      cases hunsatisfied

/-- What an advance replaces: a ready layer, by one of the same id and dependencies with less work in it. -/
lemma advance_cases (h : Advance layers layers') : ∃ before after l l', layers = before ++ l :: after ∧
    layers' = before ++ l' :: after ∧ ¬ Settled l ∧ unsatisfied layers l = [] ∧ work l' < work l := by
  cases h with
  | spec before after l l' hqueue _ _ hstatus =>
    obtain ⟨hready, hopen⟩ := open_of_queue (.inr hqueue)
    have hless : work l' < work l := by
      obtain ⟨hbuild, -⟩ | ⟨-, htwo⟩ := bucket_queue hready hopen
      · rw [hqueue] at hbuild
        cases hbuild
      · have hone : work l' = 1 := by
          unfold work isImplemented isAssumed
          rw [hstatus]
          decide
        omega
    exact ⟨before, after, l, l', rfl, rfl, hopen, hready, hless⟩
  | build before after l l' hqueue _ _ hbuilt =>
    obtain ⟨hready, hopen⟩ := open_of_queue (.inl hqueue)
    have hless : work l' < work l := by
      have hzero : work l' = 0 := by simp [work, hbuilt]
      obtain ⟨-, hone⟩ | ⟨-, htwo⟩ := bucket_queue hready hopen <;> omega
    exact ⟨before, after, l, l', rfl, rfl, hopen, hready, hless⟩

lemma Advance.less (h : Advance layers layers') : totalWork layers' < totalWork layers := by
  obtain ⟨before, after, l, l', rfl, rfl, -, -, hless⟩ := advance_cases h
  simp only [totalWork, List.map_append, List.map_cons, List.sum_append, List.sum_cons]
  omega

/-- What is satisfied stays satisfied. -/
lemma Advance.satisfies (h : Advance layers layers') (hgraph : WellOrdered (Gates.shape layers))
    (hd : satisfies layers d = true) : satisfies layers' d = true := by
  have hgraph' : WellOrdered (Gates.shape layers') := by rwa [h.shape]
  have hnodup := hgraph.distinct
  have hnodup' := hgraph'.distinct
  rw [shape_ids] at hnodup hnodup'
  obtain ⟨before, after, l, l', rfl, rfl, hopen, -, -⟩ := advance_cases h
  obtain ⟨m, hfind⟩ : ∃ m, (before ++ l :: after).reverse.find? (·.id = d) = some m := by
    unfold Gates.satisfies at hd
    split at hd
    · exact ⟨_, by assumption⟩
    · cases hd
  obtain rfl : m.id = d := by simpa using List.find?_some hfind
  have hm : m ∈ before ++ l :: after := List.mem_reverse.mp (List.mem_of_find?_eq_some hfind)
  have hsettled := (satisfies_iff hnodup hm).mp hd
  have hne : m ≠ l := by
    rintro rfl
    exact hopen hsettled
  have hm' : m ∈ before ++ l' :: after := by
    simp only [List.mem_append, List.mem_cons] at hm ⊢
    tauto
  exact (satisfies_iff hnodup' hm').mpr hsettled

/-- A layer that is blocked after an advance was blocked before it. -/
lemma Advance.blocked (h : Advance layers layers') (hgraph : WellOrdered (Gates.shape layers)) {l' : GenomeLayer}
    (hl' : l' ∈ layers') (hblocked : unsatisfied layers' l' ≠ []) :
    ∃ l ∈ layers, l.id = l'.id ∧ unsatisfied layers l ≠ [] := by
  have hmem : (l'.id, l'.entry.dependsOn) ∈ Gates.shape layers := by
    rw [← h.shape]
    exact List.mem_map_of_mem hl'
  obtain ⟨l, hl, heq⟩ := List.mem_map.mp hmem
  obtain ⟨hid, hdeps⟩ := Prod.mk.inj heq
  refine ⟨l, hl, hid, ?_⟩
  obtain ⟨d, hd⟩ := List.exists_mem_of_ne_nil _ hblocked
  obtain ⟨hdep, hopen⟩ := List.mem_filter.mp hd
  apply List.ne_nil_of_mem (a := d)
  refine List.mem_filter.mpr ⟨hdeps ▸ hdep, ?_⟩
  by_contra hnot
  have hsatisfied : Gates.satisfies layers d = true := by simpa using hnot
  rw [h.satisfies hgraph hsatisfied] at hopen
  cases hopen

/-- What the plan says of layers at any moment: every layer is in one bucket, there is something to do exactly while a
layer is not settled, and whatever is done of it brings the end nearer and blocks nothing. -/
structure Proceeds (layers : List GenomeLayer) : Prop where
  counted : (planFromGenome layers).counts .done + (planFromGenome layers).counts .inFlight +
    (planFromGenome layers).counts .verifyQueue + (planFromGenome layers).counts .buildQueue +
    (planFromGenome layers).counts .specQueue + (planFromGenome layers).counts .blocked = layers.length
  queued : (∃ l ∈ layers, ¬ Settled l) ↔ ∃ next, Advance layers next
  settled : (∀ l ∈ layers, Settled l) → (planFromGenome layers).buckets .blocked = []
  nearer : ∀ next, Advance layers next → totalWork next < totalWork layers
  stays : ∀ next, Advance layers next → ∀ node ∈ (planFromGenome next).buckets .blocked,
    ∃ old ∈ (planFromGenome layers).buckets .blocked, old.id = node.id

lemma mem_bucket {b : PlanBucket} {node : PlanNode} :
    node ∈ (planFromGenome layers).buckets b ↔ ∃ l ∈ layers, planNode layers l = node ∧ bucketOf layers l = b := by
  simp only [planFromGenome, List.mem_filter, List.mem_map, decide_eq_true_eq]
  constructor
  · rintro ⟨⟨l, hl, rfl⟩, hb⟩
    exact ⟨l, hl, rfl, hb⟩
  · rintro ⟨l, hl, rfl, hb⟩
    exact ⟨⟨l, hl, rfl⟩, hb⟩

lemma counts_sum (nodes : List PlanNode) :
    (nodes.filter (·.bucket = .done)).length + (nodes.filter (·.bucket = .inFlight)).length +
    (nodes.filter (·.bucket = .verifyQueue)).length + (nodes.filter (·.bucket = .buildQueue)).length +
    (nodes.filter (·.bucket = .specQueue)).length + (nodes.filter (·.bucket = .blocked)).length = nodes.length := by
  induction nodes with
  | nil => rfl
  | cons node nodes ih =>
    cases hb : node.bucket <;> simp [hb] <;> omega

/-- A ready layer can be worked on. -/
lemma exists_advance (hl : l ∈ layers) (hready : unsatisfied layers l = []) (hopen : ¬ Settled l) :
    ∃ next, Advance layers next := by
  obtain ⟨before, after, rfl⟩ := List.append_of_mem hl
  obtain ⟨hqueue, -⟩ | ⟨hqueue, -⟩ := bucket_queue hready hopen
  · refine ⟨_, .build before after l ⟨{ l.entry with status := ofText "implemented" }, l.recordStatus⟩ hqueue rfl rfl ?_⟩
    simp [isImplemented]
  · exact ⟨_, .spec before after l ⟨{ l.entry with status := ofText "ratified-unimplemented" }, l.recordStatus⟩ hqueue rfl rfl rfl⟩

lemma proceeds_of_graph (hgraph : WellOrdered (shape layers)) : Proceeds layers where
  counted := by simpa [planFromGenome] using counts_sum (layers.map (planNode layers))
  queued := by
    constructor
    · rintro ⟨l, hl, hopen⟩
      obtain ⟨m, hm, hready, hmopen⟩ :=
        ready_behind hgraph (hgraph.cleared (l.id, l.entry.dependsOn) (List.mem_map_of_mem hl)) ⟨l, hl, rfl, hopen⟩
      exact exists_advance hm hready hmopen
    · rintro ⟨next, hnext⟩
      obtain ⟨before, after, l, l', rfl, rfl, hopen, -, -⟩ := advance_cases hnext
      exact ⟨l, by simp, hopen⟩
  settled hall := by
    have hnodup := hgraph.distinct
    rw [shape_ids] at hnodup
    by_contra hsome
    obtain ⟨node, hnode⟩ := List.exists_mem_of_ne_nil _ hsome
    obtain ⟨l, hl, -, hblocked⟩ := mem_bucket.mp hnode
    obtain ⟨d, hd⟩ := List.exists_mem_of_ne_nil _ (bucket_blocked.mp hblocked)
    obtain ⟨hdep, hopen⟩ := List.mem_filter.mp hd
    have hknown := hgraph.known (l.id, l.entry.dependsOn) (List.mem_map_of_mem hl) d hdep
    rw [shape_ids] at hknown
    obtain ⟨m, hm, rfl⟩ := List.mem_map.mp hknown
    rw [(satisfies_iff hnodup hm).mpr (hall m hm)] at hopen
    cases hopen
  nearer _ hnext := hnext.less
  stays next hnext node hnode := by
    obtain ⟨l', hl', rfl, hblocked⟩ := mem_bucket.mp hnode
    obtain ⟨l, hl, hid, hold⟩ := hnext.blocked hgraph hl' (bucket_blocked.mp hblocked)
    exact ⟨planNode layers l, mem_bucket.mpr ⟨l, hl, rfl, bucket_blocked.mpr hold⟩, hid⟩

variable {raw : Except JsString RawRegistry} {registry : LayerRegistry}

def plannedLayer (id status : String) (dependsOn : List String) : GenomeLayer :=
  ⟨⟨ofText id, ofText status, none, none, dependsOn.map ofText, none⟩, none⟩

def plannedRegistry : Except JsString RawRegistry :=
  .ok ⟨some [⟨ofText "A", ofText "queued", none, none, some [], none⟩,
    ⟨ofText "B", ofText "ratified-unimplemented", none, none, some [ofText "A"], none⟩], some (ofText "Ω")⟩

end Building

end VivimOmega.Gates

import VivimOmega.Host.Centrality

/-! The centrality sweep over a snapshot of the capability graph, beside what the host computes of the graph. -/

namespace VivimOmega.Lens

open Library Contracts Host CapabilityGraph

structure GraphNodeView where
  id : String

structure GraphEdgeView where
  target : String
  capability : String

structure Snapshot where
  nodes : List GraphNodeView
  edges : List GraphEdgeView

structure Centrality where
  fanIn : ℕ
  blastRadius : ℕ
  deriving DecidableEq

structure LensConfig where
  fanInThreshold : ℚ
  blastRadiusThreshold : ℚ

def defaultThresholds : LensConfig := ⟨5, 20⟩

def isLoadBearing (c : Centrality) (cfg : LensConfig) : Bool :=
  cfg.fanInThreshold ≤ c.fanIn ∨ cfg.blastRadiusThreshold ≤ c.blastRadius

structure SweepReport where
  loadBearing : List (String × Centrality)
  thresholds : LensConfig
  nodeCount : ℕ
  edgeCount : ℕ

section Reading

def textProperty (v : JsValue) (name : String) : Option String := (v.prop? name).bind JsValue.string?

def arrayProperty (v : JsValue) (name : String) : Option (List JsValue) :=
  match v.prop? name with
  | some (.arr items) => some items
  | _ => none

def GraphNodeView.read (v : JsValue) : Option GraphNodeView := do
  let id ← textProperty v "id"
  return { id }

def GraphEdgeView.read (v : JsValue) : Option GraphEdgeView := do
  let target ← textProperty v "to"
  let capability ← textProperty v "capability"
  return { target, capability }

/-- What the port call brings, taken for a snapshot. -/
def Snapshot.read (v : JsValue) : Option Snapshot := do
  let nodes ← arrayProperty v "nodes"
  let edges ← arrayProperty v "edges"
  return { nodes := ← nodes.mapM GraphNodeView.read, edges := ← edges.mapM GraphEdgeView.read }

end Reading

namespace Snapshot

abbrev Adjacency := OrderedMap String (List String)

def isolated (s : Snapshot) : Adjacency := s.nodes.foldl (fun m n => m.set n.id []) .empty

/-- `get(id)?.add(x)` -/
def addIfThere (m : Adjacency) (id x : String) : Adjacency :=
  match m.get? id with
  | some set => m.set id (insertOnce set x)
  | none => m

def addAll (here there : GraphEdgeView → String) (edges : List GraphEdgeView) (m : Adjacency) : Adjacency :=
  edges.foldl (fun m e => addIfThere m (here e) (there e)) m

def outAdj (s : Snapshot) : Adjacency := addAll GraphEdgeView.target GraphEdgeView.capability s.edges s.isolated

def inAdj (s : Snapshot) : Adjacency := addAll GraphEdgeView.capability GraphEdgeView.target s.edges s.isolated

def neighbours (s : Snapshot) (id : String) : List String :=
  (s.outAdj.get? id).getD [] ++ (s.inAdj.get? id).getD []

def blastRadius (s : Snapshot) (id : String) : Option ℕ :=
  (search s.neighbours (s.nodes.map fun n => (s.neighbours n.id).length).sum [id] (s.neighbours id)).map
    fun seen => (seen.erase id).length

def centrality (s : Snapshot) (id : String) : Option Centrality := do
  let blastRadius ← s.blastRadius id
  return { fanIn := ((s.inAdj.get? id).getD []).length, blastRadius }

def sweep (s : Snapshot) (cfg : LensConfig) : Option SweepReport := do
  let rows ← s.nodes.mapM fun n => (s.centrality n.id).map fun c => (n.id, c)
  return {
    loadBearing := rows.filter fun row => isLoadBearing row.2 cfg
    thresholds := cfg
    nodeCount := s.nodes.length
    edgeCount := s.edges.length }

/-- The snapshot of a graph, read. -/
def view (g : CapabilityGraph) : Snapshot where
  nodes := g.nodes.values.map fun n => ⟨n.id⟩
  edges := g.edges.map fun e => ⟨e.target, e.capability⟩

lemma mapM_read {α β : Type} {w : α → JsValue} {r : JsValue → Option β} {f : α → β}
    (h : ∀ a, r (w a) = some (f a)) (xs : List α) : (xs.map w).mapM r = some (xs.map f) := by
  induction xs with
  | nil => rfl
  | cons a rest ih =>
    rw [List.map_cons, List.mapM_cons, h, ih]
    rfl

lemma read_snapshot (g : CapabilityGraph) : Snapshot.read g.snapshot = some (view g) := by
  have hnodes := mapM_read (w := snapshotNode) (r := GraphNodeView.read) (f := fun n => ⟨n.id⟩) (fun _ => rfl)
    g.nodes.values
  have hedges := mapM_read (r := GraphEdgeView.read) (f := fun e : Edge => ⟨e.target, e.capability⟩)
    (w := fun e => .obj [("to", .str e.target), ("capability", .str e.capability), ("kind", .str e.kind.text)])
    (fun _ => rfl) g.edges
  have hread : Snapshot.read g.snapshot = do
      let nodes ← (g.nodes.values.map snapshotNode).mapM GraphNodeView.read
      let edges ← (g.edges.map _).mapM GraphEdgeView.read
      return { nodes, edges } := rfl
  rw [hread, hnodes, hedges]
  rfl

section Adjacencies

variable {here there : GraphEdgeView → String} {edges : List GraphEdgeView} {m : Adjacency}

lemma get?_addIfThere (m : Adjacency) (id x y : String) :
    (addIfThere m id x).get? y = (m.get? y).map fun set => if y = id then insertOnce set x else set := by
  unfold addIfThere
  cases hset : m.get? id with
  | none =>
    dsimp only
    by_cases hy : y = id
    · rw [hy, hset]
      rfl
    · simp [hy]
  | some set =>
    dsimp only
    rw [OrderedMap.get?_set]
    by_cases hy : y = id
    · simp [hy, hset]
    · simp [hy]

lemma mem_addAll (y z : String) :
    z ∈ ((addAll here there edges m).get? y).getD [] ↔
      z ∈ (m.get? y).getD [] ∨ m.has y = true ∧ ∃ e ∈ edges, here e = y ∧ there e = z := by
  induction edges generalizing m with
  | nil => simp [addAll]
  | cons e rest ih =>
    have hhas : (addIfThere m (here e) (there e)).has y = m.has y := by
      simp [OrderedMap.has, get?_addIfThere]
    have hfold : addAll here there (e :: rest) m = addAll here there rest (addIfThere m (here e) (there e)) := rfl
    rw [hfold, ih, hhas, get?_addIfThere, OrderedMap.has]
    cases m.get? y with
    | none => simp
    | some set =>
      by_cases hy : y = here e
      · simp [hy, mem_insertOnce, or_assoc, eq_comm]
      · simp [hy, Ne.symm hy]

lemma nodup_addAll (hm : ∀ y, ((m.get? y).getD []).Nodup) (y : String) :
    (((addAll here there edges m).get? y).getD []).Nodup := by
  induction edges generalizing m with
  | nil => exact hm y
  | cons e rest ih =>
    refine ih fun y => ?_
    rw [get?_addIfThere]
    have hy := hm y
    cases hset : m.get? y with
    | none => exact List.nodup_nil
    | some set =>
      rw [hset] at hy
      rw [Option.map_some, Option.getD_some]
      split_ifs
      · exact nodup_insertOnce hy
      · exact hy

lemma get?_isolated (s : Snapshot) (y : String) :
    s.isolated.get? y = if y ∈ s.nodes.map GraphNodeView.id then some [] else none := by
  have hfold : ∀ (nodes : List GraphNodeView) (m : Adjacency),
      (nodes.foldl (fun m n => m.set n.id []) m).get? y =
        if y ∈ nodes.map GraphNodeView.id then some [] else m.get? y := by
    intro nodes
    induction nodes with
    | nil => simp
    | cons n rest ih =>
      intro m
      rw [List.foldl_cons, ih, OrderedMap.get?_set, List.map_cons]
      by_cases hy : y = n.id
      · simp [hy]
      · simp [hy]
  exact (hfold s.nodes .empty).trans (by rw [OrderedMap.get?_empty])

lemma isolated_empty (s : Snapshot) (y : String) : (s.isolated.get? y).getD [] = [] := by
  rw [get?_isolated]
  split_ifs <;> rfl

end Adjacencies

section Agreement

variable {g : CapabilityGraph}

lemma view_ids (h : g.Represents) : (view g).nodes.map GraphNodeView.id = g.nodes.keys := by
  rw [view, List.map_map, OrderedMap.values, List.map_map, OrderedMap.keys]
  exact List.map_congr_left fun kn hkn => h.ids kn.1 kn.2 (OrderedMap.get?_of_mem hkn)

lemma has_isolated (h : g.Represents) (y : String) : (view g).isolated.has y = g.nodes.has y := by
  rw [Bool.eq_iff_iff, OrderedMap.has, get?_isolated, view_ids h, OrderedMap.has, OrderedMap.get?_isSome]
  split_ifs with hy
  · exact iff_of_true rfl hy
  · exact iff_of_false (by simp) hy

lemma exists_viewed (P : GraphEdgeView → Prop) :
    (∃ e ∈ (view g).edges, P e) ↔ ∃ e ∈ g.edges, P ⟨e.target, e.capability⟩ := by
  simp [view]

lemma mem_outAdj (h : g.Represents) (a b : String) :
    b ∈ ((view g).outAdj.get? a).getD [] ↔ ∃ kind, g.Grants kind a b := by
  rw [outAdj, mem_addAll, isolated_empty, has_isolated h, exists_viewed]
  constructor
  · rintro (hnil | ⟨_, e, he, rfl, rfl⟩)
    · cases hnil
    · exact ⟨e.kind, e, he, rfl, rfl, rfl⟩
  · rintro ⟨_, e, he, _, rfl, rfl⟩
    exact Or.inr ⟨(h.known e he).1, e, he, rfl, rfl⟩

lemma mem_inAdj (h : g.Represents) (a b : String) :
    b ∈ ((view g).inAdj.get? a).getD [] ↔ ∃ kind, g.Grants kind b a := by
  rw [inAdj, mem_addAll, isolated_empty, has_isolated h, exists_viewed]
  constructor
  · rintro (hnil | ⟨_, e, he, rfl, rfl⟩)
    · cases hnil
    · exact ⟨e.kind, e, he, rfl, rfl, rfl⟩
  · rintro ⟨_, e, he, _, rfl, rfl⟩
    exact Or.inr ⟨(h.known e he).2, e, he, rfl, rfl⟩

lemma blastRadius_view (h : g.Represents) (id : String) :
    (view g).blastRadius id = some (g.affected id).ncard := by
  have hnext : ∀ a b, b ∈ (view g).neighbours a ↔ (∃ kind, g.Grants kind a b) ∨ ∃ kind, g.Grants kind b a := by
    intro a b
    rw [neighbours, List.mem_append, mem_outAdj h, mem_inAdj h]
  have hknown : ∀ a b, b ∈ (view g).neighbours a → b ∈ g.nodes.keys := fun a b hb =>
    h.neighbours_known a b ((h.mem_neighbours a b).mpr ((hnext a b).mp hb))
  have hfuel : ((view g).nodes.map fun n => ((view g).neighbours n.id).length) =
      g.nodes.keys.map fun n => ((view g).neighbours n).length := by
    rw [← view_ids h, List.map_map]
    rfl
  rw [blastRadius, hfuel]
  exact search_affected hnext g.nodes.nodup hknown id

/-- The sweep joins the two kinds of edges, and so counts each principal once. -/
lemma centrality_view (h : g.Represents) (id : String) :
    (view g).centrality id = some ⟨(g.principals id).ncard, (g.affected id).ncard⟩ := by
  have hset : g.principals id = ((((view g).inAdj.get? id).getD []).toFinset : Set String) := by
    ext p
    rw [List.coe_toFinset, Set.mem_ofPred_eq, mem_inAdj h]
    rfl
  have honce : (((view g).inAdj.get? id).getD []).Nodup :=
    nodup_addAll (fun y => by rw [isolated_empty]; exact List.nodup_nil) id
  rw [centrality, blastRadius_view h, hset, Set.ncard_coe_finset, List.toFinset_card_of_nodup honce]
  rfl

lemma sweep_view (h : g.Represents) (cfg : LensConfig) :
    (view g).sweep cfg = some {
      loadBearing := ((view g).nodes.map fun n =>
        (n.id, ⟨(g.principals n.id).ncard, (g.affected n.id).ncard⟩)).filter fun row => isLoadBearing row.2 cfg
      thresholds := cfg
      nodeCount := (view g).nodes.length
      edgeCount := (view g).edges.length } := by
  have hrows : ((view g).nodes.mapM fun n => ((view g).centrality n.id).map fun c => (n.id, c)) =
      some ((view g).nodes.map fun n => (n.id, ⟨(g.principals n.id).ncard, (g.affected n.id).ncard⟩)) := by
    induction (view g).nodes with
    | nil => rfl
    | cons n rest ih =>
      rw [List.mapM_cons, ih, centrality_view h]
      rfl
  rw [sweep, hrows]
  rfl

end Agreement

end Snapshot

open Snapshot

/-- The lens and the host agree on a node, and with what they count, where nobody both offers and holds it. -/
theorem lens_agrees_iff {g : CapabilityGraph} (h : Built g) (id : String) :
    ∃ s c, Snapshot.read g.snapshot = some s ∧ s.centrality id = some c ∧
      (∀ cfg, ∃ report, s.sweep cfg = some report ∧ ∀ row ∈ report.loadBearing, s.centrality row.1 = some row.2) ∧
      (c.fanIn = g.fanIn id ∧ some c.blastRadius = g.blastRadius id ∧ c.fanIn = (g.principals id).ncard ∧
          g.fanIn id = (g.principals id).ncard ∧ c.blastRadius = (g.affected id).ncard ↔
        ∀ p, ¬(g.Grants .offer p id ∧ g.Grants .hold p id)) := by
  have hrep := h.represents
  refine ⟨view g, _, read_snapshot g, centrality_view hrep id, fun cfg => ?_, ?_⟩
  · refine ⟨_, sweep_view hrep cfg, fun row hrow => ?_⟩
    obtain ⟨n, _, rfl⟩ := List.mem_map.mp (List.mem_filter.mp hrow).1
    exact centrality_view hrep n.id
  · rw [← hrep.fanIn_iff, hrep.blastRadius]
    dsimp only
    constructor
    · rintro ⟨_, _, _, hfan, _⟩
      exact hfan
    · intro hfan
      exact ⟨hfan.symm, rfl, rfl, hfan, rfl⟩

section Samples

def pinged : SignedGrant := ⟨⟨"omega.echo", "omega.echo", "echo.ping@1", 0, ""⟩, ""⟩

/-- A grant of the one op, if it is not refused. -/
def pinging (g : CapabilityGraph) (id : String) (kind : EdgeKind) : CapabilityGraph :=
  match g.grant id id "echo.ping@1" pinged true kind with
  | .ok g' => g'
  | .error _ => g

lemma built_pinging {g : CapabilityGraph} (h : Built g) (id : String) (kind : EdgeKind) :
    Built (pinging g id kind) := by
  unfold pinging
  split
  · next hg => exact h.grant hg
  · exact h

def echoNodes : CapabilityGraph :=
  ((({} : CapabilityGraph).upsertNode { id := "omega.echo", kind := .principal }).upsertNode
    { id := "vivim.mind", kind := .principal }).upsertNode { id := "echo.ping@1", kind := .capability }

lemma built_echoNodes : Built echoNodes := ((Built.empty.upsert _).upsert _).upsert _

/-- A plugin that serves the op and may call it. -/
def selfCalling : CapabilityGraph := pinging (pinging echoNodes "omega.echo" .offer) "omega.echo" .hold

/-- Another plugin may call it. -/
def mindCalling : CapabilityGraph := pinging (pinging echoNodes "omega.echo" .offer) "vivim.mind" .hold

end Samples

theorem lens_disagrees : Built selfCalling ∧ selfCalling.fanIn "echo.ping@1" = 2 ∧
    ∃ s c, Snapshot.read selfCalling.snapshot = some s ∧ s.centrality "echo.ping@1" = some c ∧ c.fanIn = 1 := by
  refine ⟨built_pinging (built_pinging built_echoNodes _ _) _ _, by decide, view selfCalling, ⟨1, 1⟩,
    read_snapshot _, by decide, rfl⟩

theorem lens_agrees_mindCalling : ∃ s c, Snapshot.read mindCalling.snapshot = some s ∧
    s.centrality "echo.ping@1" = some c ∧ c.fanIn = mindCalling.fanIn "echo.ping@1" ∧
      some c.blastRadius = mindCalling.blastRadius "echo.ping@1" := by
  have hbuilt : Built mindCalling := built_pinging (built_pinging built_echoNodes _ _) _ _
  obtain ⟨s, c, hs, hc, _, hagree⟩ := lens_agrees_iff hbuilt "echo.ping@1"
  have happart : ∀ p, ¬(mindCalling.Grants .offer p "echo.ping@1" ∧ mindCalling.Grants .hold p "echo.ping@1") := by
    rintro p ⟨hoffer, hhold⟩
    have ho := (hbuilt.represents.offers p "echo.ping@1").mpr hoffer
    have hh := (hbuilt.represents.holds p "echo.ping@1").mpr hhold
    have hoffers : mindCalling.whoOffers "echo.ping@1" = ["omega.echo"] := by decide
    have hholds : mindCalling.whoHolds "echo.ping@1" = ["vivim.mind"] := by decide
    rw [hoffers, List.mem_singleton] at ho
    rw [hholds, List.mem_singleton, ho] at hh
    exact absurd hh (by decide)
  obtain ⟨hfan, hblast, _⟩ := hagree.mpr happart
  exact ⟨s, c, hs, hc, hfan, hblast⟩



end VivimOmega.Lens

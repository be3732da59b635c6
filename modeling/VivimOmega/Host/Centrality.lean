import VivimOmega.Host.Kernel
import VivimOmega.Library.Search

/-! How much of the capability graph hangs on a node, as the host computes it. -/

namespace VivimOmega.Host

open Library Contracts

namespace CapabilityGraph

def whoHolds (g : CapabilityGraph) (capability : String) : List String := (g.holders.get? capability).getD []

def grantedTo (g : CapabilityGraph) (id : String) : List String := (g.outgoing.get? id).getD []

def fanIn (g : CapabilityGraph) (id : String) : ℕ := (g.whoOffers id).length + (g.whoHolds id).length

def neighbours (g : CapabilityGraph) (id : String) : List String := g.grantedTo id ++ g.whoOffers id ++ g.whoHolds id

/-- The search takes as many steps as there are neighbours. -/
def blastRadius (g : CapabilityGraph) (id : String) : Option ℕ :=
  if g.nodes.has id then
    (search g.neighbours (g.nodes.keys.map fun n => (g.neighbours n).length).sum [id] (g.neighbours id)).map
      fun seen => (seen.erase id).length
  else some 0

/-- The graphs that upserts and grants build. -/
inductive Built : CapabilityGraph → Prop
  | empty : Built {}
  | upsert {g : CapabilityGraph} (h : Built g) (n : GraphNode) : Built (g.upsertNode n)
  | grant {g g' : CapabilityGraph} (h : Built g) {source target capability : String} {signed : SignedGrant}
      {verifies : Bool} {kind : EdgeKind} (hg : g.grant source target capability signed verifies kind = .ok g') :
      Built g'

/-- A grant joins its capability and who it was granted to. -/
def Grants (g : CapabilityGraph) (kind : EdgeKind) (target capability : String) : Prop :=
  ∃ e ∈ g.edges, e.kind = kind ∧ e.target = target ∧ e.capability = capability

def joins (g : CapabilityGraph) : SimpleGraph String :=
  SimpleGraph.fromRel fun a b => ∃ kind, g.Grants kind a b

/-- Who is joined to a capability by an edge of any kind. -/
def principals (g : CapabilityGraph) (id : String) : Set String := {p | ∃ kind, g.Grants kind p id}

/-- The rest of the component of a node. -/
def affected (g : CapabilityGraph) (id : String) : Set String := {x | x ≠ id ∧ g.joins.Reachable id x}

/-- The sets of a graph list its edges, and its edges join its nodes. -/
structure Represents (g : CapabilityGraph) : Prop where
  ids : ∀ k n, g.nodes.get? k = some n → n.id = k
  known : ∀ e ∈ g.edges, g.nodes.has e.target = true ∧ g.nodes.has e.capability = true
  offers : ∀ p c, p ∈ g.whoOffers c ↔ g.Grants .offer p c
  holds : ∀ p c, p ∈ g.whoHolds c ↔ g.Grants .hold p c
  granted : ∀ p c, c ∈ g.grantedTo p ↔ ∃ kind, g.Grants kind p c
  offersOnce : ∀ c, (g.whoOffers c).Nodup
  holdsOnce : ∀ c, (g.whoHolds c).Nodup

lemma get?_addTo (m : OrderedMap String (List String)) (id x y : String) :
    ((addTo m id x).get? y).getD [] =
      if y = id then insertOnce ((m.get? id).getD []) x else (m.get? y).getD [] := by
  rw [addTo, OrderedMap.get?_set]
  split_ifs <;> rfl

lemma mem_addTo (m : OrderedMap String (List String)) (id x y z : String) :
    z ∈ ((addTo m id x).get? y).getD [] ↔ z ∈ (m.get? y).getD [] ∨ y = id ∧ z = x := by
  rw [get?_addTo]
  split_ifs with hy
  · simp [mem_insertOnce, hy]
  · simp [hy]

lemma nodup_addTo {m : OrderedMap String (List String)} (h : ∀ y, ((m.get? y).getD []).Nodup) (id x y : String) :
    (((addTo m id x).get? y).getD []).Nodup := by
  rw [get?_addTo]
  split_ifs
  · exact nodup_insertOnce (h id)
  · exact h y

/-- A grant that is not refused adds an edge between known nodes. -/
lemma grant_cases {g g' : CapabilityGraph} {source target capability : String} {signed : SignedGrant}
    {verifies : Bool} {kind : EdgeKind} (h : g.grant source target capability signed verifies kind = .ok g') :
    g.nodes.has target = true ∧ g.nodes.has capability = true ∧
      g' = { g with
        edges := g.edges ++ [{ target, capability, kind, grant := signed }]
        offerors := if kind = .offer then addTo g.offerors capability target else g.offerors
        holders := if kind = .offer then g.holders else addTo g.holders capability target
        outgoing := addTo g.outgoing target capability } := by
  unfold grant at h
  split_ifs at h with hs ht hc hv hk
  · cases h
    exact ⟨by simpa using ht, by simpa using hc, by simp [hk]⟩
  · cases h
    exact ⟨by simpa using ht, by simpa using hc, by simp [hk]⟩

lemma grants_concat {g g' : CapabilityGraph} {e : Edge} (h : g'.edges = g.edges ++ [e]) (kind : EdgeKind)
    (p c : String) : g'.Grants kind p c ↔ g.Grants kind p c ∨ e.kind = kind ∧ e.target = p ∧ e.capability = c := by
  unfold Grants
  rw [h]
  simp [or_and_right, exists_or]

lemma represents_empty : Represents {} where
  ids _ _ h := by simp at h
  known := by simp
  offers p c := by simp [whoOffers, Grants]
  holds p c := by simp [whoHolds, Grants]
  granted p c := by simp [grantedTo, Grants]
  offersOnce c := by simp [whoOffers]
  holdsOnce c := by simp [whoHolds]

lemma Represents.upsert {g : CapabilityGraph} (h : g.Represents) (n : GraphNode) : (g.upsertNode n).Represents where
  ids k m hm := by
    rw [upsertNode, OrderedMap.get?_set] at hm
    split_ifs at hm with hk
    · cases hm
      exact hk.symm
    · exact h.ids k m hm
  known e he := by
    obtain ⟨ht, hc⟩ := h.known e he
    simp [upsertNode, ht, hc]
  offers p c := by
    rw [whoOffers, upsertNode, get?_ensureSet]
    exact h.offers p c
  holds p c := by
    rw [whoHolds, upsertNode, get?_ensureSet]
    exact h.holds p c
  granted p c := by
    rw [grantedTo, upsertNode, get?_ensureSet]
    exact h.granted p c
  offersOnce c := by
    rw [whoOffers, upsertNode, get?_ensureSet]
    exact h.offersOnce c
  holdsOnce c := by
    rw [whoHolds, upsertNode, get?_ensureSet]
    exact h.holdsOnce c

lemma Represents.grant {g g' : CapabilityGraph} (h : g.Represents) {source target capability : String}
    {signed : SignedGrant} {verifies : Bool} {kind : EdgeKind}
    (hg : g.grant source target capability signed verifies kind = .ok g') : g'.Represents := by
  obtain ⟨ht, hc, hg'⟩ := grant_cases hg
  have hedges := grants_concat (congrArg edges hg')
  subst hg'
  refine ⟨h.ids, ?_, fun p c => ?_, fun p c => ?_, fun p c => ?_, fun c => ?_, fun c => ?_⟩
  · intro e he
    obtain he | he := List.mem_append.mp he
    · exact h.known e he
    · obtain rfl := List.mem_singleton.mp he
      exact ⟨ht, hc⟩
  · rw [hedges, ← h.offers]
    cases kind with
    | hold => simp [whoOffers]
    | offer => simp [whoOffers, mem_addTo, and_comm, eq_comm]
  · rw [hedges, ← h.holds]
    cases kind with
    | hold => simp [whoHolds, mem_addTo, and_comm, eq_comm]
    | offer => simp [whoHolds]
  · simp only [hedges, exists_or, ← h.granted]
    simp [grantedTo, mem_addTo, eq_comm]
  · cases kind with
    | hold => exact h.offersOnce c
    | offer => exact nodup_addTo h.offersOnce _ _ _
  · cases kind with
    | hold => exact nodup_addTo h.holdsOnce _ _ _
    | offer => exact h.holdsOnce c

theorem Built.represents {g : CapabilityGraph} (h : Built g) : g.Represents := by
  induction h with
  | empty => exact represents_empty
  | upsert _ n ih => exact ih.upsert n
  | grant _ hg ih => exact ih.grant hg

section Represented

variable {g : CapabilityGraph} (h : g.Represents)
include h

lemma Represents.mem_neighbours (a b : String) :
    b ∈ g.neighbours a ↔ (∃ kind, g.Grants kind a b) ∨ ∃ kind, g.Grants kind b a := by
  have hkinds : (∃ kind, g.Grants kind b a) ↔ g.Grants .offer b a ∨ g.Grants .hold b a := by
    constructor
    · rintro ⟨kind, hg⟩
      cases kind with
      | offer => exact Or.inl hg
      | hold => exact Or.inr hg
    · rintro (hg | hg)
      · exact ⟨_, hg⟩
      · exact ⟨_, hg⟩
  rw [neighbours, List.mem_append, List.mem_append, h.granted, h.offers, h.holds, hkinds, or_assoc]

lemma Represents.neighbours_known (a b : String) (hb : b ∈ g.neighbours a) : b ∈ g.nodes.keys := by
  refine (OrderedMap.get?_isSome g.nodes b).mp ?_
  obtain ⟨_, e, he, _, _, rfl⟩ | ⟨_, e, he, _, rfl, _⟩ := (h.mem_neighbours a b).mp hb
  · exact (h.known e he).2
  · exact (h.known e he).1

end Represented

/-- Ways along neighbours stay in the component, and reach all of it. -/
lemma leads_iff {g : CapabilityGraph} {next : String → List String}
    (hnext : ∀ a b, b ∈ next a ↔ (∃ kind, g.Grants kind a b) ∨ ∃ kind, g.Grants kind b a) (a b : String) :
    Leads next a b ↔ g.joins.Reachable a b := by
  have hadj : ∀ x y, x ≠ y → (y ∈ next x ↔ g.joins.Adj x y) := by
    intro x y hne
    rw [hnext, joins, SimpleGraph.fromRel_adj]
    simp [hne]
  constructor
  · intro hway
    induction hway with
    | refl => exact .refl _
    | @tail y z _ hstep ih =>
      by_cases hyz : y = z
      · exact hyz ▸ ih
      · exact ih.trans ((hadj y z hyz).mp hstep).reachable
  · rintro ⟨walk⟩
    induction walk with
    | nil => exact .refl
    | cons hstep _ ih => exact ih.head ((hadj _ _ hstep.ne).mpr hstep)

/-- A search along the edges counts the rest of the component. -/
theorem search_affected {g : CapabilityGraph} {next : String → List String}
    (hnext : ∀ a b, b ∈ next a ↔ (∃ kind, g.Grants kind a b) ∨ ∃ kind, g.Grants kind b a) {nodes : List String}
    (hnodes : nodes.Nodup) (hknown : ∀ a b, b ∈ next a → b ∈ nodes) (id : String) :
    (search next (nodes.map fun n => (next n).length).sum [id] (next id)).map (fun seen => (seen.erase id).length) =
      some (g.affected id).ncard := by
  by_cases hid : id ∈ nodes
  · obtain ⟨found, hfound, honce, hmem⟩ := search_node hnodes (fun a _ b hb => hknown a b hb) hid
    have hset : g.affected id = ((found.erase id).toFinset : Set String) := by
      ext x
      rw [List.coe_toFinset, Set.mem_ofPred_eq, honce.mem_erase_iff, hmem, leads_iff hnext]
      rfl
    rw [hfound, Option.map_some, hset, Set.ncard_coe_finset, List.toFinset_card_of_nodup (honce.erase id)]
  -- an unknown node is joined to nothing
  · have hnone : next id = [] := by
      refine List.eq_nil_iff_forall_not_mem.mpr fun b hb => hid (hknown b id ?_)
      exact (hnext b id).mpr ((hnext id b).mp hb).symm
    have hset : g.affected id = ∅ := by
      refine Set.eq_empty_of_forall_notMem fun x ⟨hne, hreach⟩ => ?_
      obtain ⟨y, hadj, _⟩ := ((leads_iff hnext id x).mpr hreach).cases_head.resolve_left hne.symm
      rw [hnone] at hadj
      cases hadj
    rw [hnone, hset, search, Set.ncard_empty]
    simp

lemma Represents.blastRadius {g : CapabilityGraph} (h : g.Represents) (id : String) :
    g.blastRadius id = some (g.affected id).ncard := by
  have hsearch := search_affected h.mem_neighbours g.nodes.nodup h.neighbours_known id
  unfold CapabilityGraph.blastRadius
  split_ifs with hid
  · exact hsearch
  · have hnone : g.neighbours id = [] := by
      refine List.eq_nil_iff_forall_not_mem.mpr fun b hb => hid ((OrderedMap.get?_isSome g.nodes id).mpr ?_)
      exact h.neighbours_known b id ((h.mem_neighbours b id).mpr ((h.mem_neighbours id b).mp hb).symm)
    rw [hnone, search] at hsearch
    simpa using hsearch

lemma Represents.principals_eq {g : CapabilityGraph} (h : g.Represents) (id : String) :
    g.principals id = ((g.whoOffers id ++ g.whoHolds id).toFinset : Set String) := by
  ext p
  rw [List.coe_toFinset, Set.mem_ofPred_eq, List.mem_append, h.offers, h.holds]
  constructor
  · rintro ⟨kind, hg⟩
    cases kind with
    | offer => exact Or.inl hg
    | hold => exact Or.inr hg
  · rintro (hg | hg)
    · exact ⟨_, hg⟩
    · exact ⟨_, hg⟩

/-- Offers and holds are counted apart, which counts a principal twice that has both. -/
lemma Represents.fanIn_iff {g : CapabilityGraph} (h : g.Represents) (id : String) :
    g.fanIn id = (g.principals id).ncard ↔ ∀ p, ¬(g.Grants .offer p id ∧ g.Grants .hold p id) := by
  have hcard : (g.principals id).ncard =
      (g.whoOffers id).length + (g.whoHolds id).length -
        ((g.whoOffers id).toFinset ∩ (g.whoHolds id).toFinset).card := by
    rw [h.principals_eq, Set.ncard_coe_finset, List.toFinset_append, Finset.card_union,
      List.toFinset_card_of_nodup (h.offersOnce id), List.toFinset_card_of_nodup (h.holdsOnce id)]
  have hle : ((g.whoOffers id).toFinset ∩ (g.whoHolds id).toFinset).card ≤ (g.whoOffers id).length := by
    rw [← List.toFinset_card_of_nodup (h.offersOnce id)]
    exact Finset.card_le_card Finset.inter_subset_left
  have hboth : ((g.whoOffers id).toFinset ∩ (g.whoHolds id).toFinset).card = 0 ↔
      ∀ p, ¬(g.Grants .offer p id ∧ g.Grants .hold p id) := by
    rw [Finset.card_eq_zero, Finset.eq_empty_iff_forall_notMem]
    simp [h.offers, h.holds]
  rw [← hboth, hcard, fanIn]
  omega

end CapabilityGraph

end VivimOmega.Host

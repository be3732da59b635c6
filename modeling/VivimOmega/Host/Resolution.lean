import VivimOmega.Host.Boot
import VivimOmega.Host.Shape

/-! Two ways to resolve an op: over the offers and generations of the kernel, and by the table of routes. -/

namespace VivimOmega.Host

open Library Contracts

section Names

lemma named_text (n v : String) : n ++ "@" ++ v = String.ofList (n.toList ++ '@' :: v.toList) := by
  apply String.toList_injective
  simp

lemma opName_append {n v : String} (hn : n ≠ "") (hv : '@' ∉ v.toList) :
    opName (n ++ "@" ++ v) = n ∧ opVersion (n ++ "@" ++ v) = v := by
  have hindex : Text.lastIndexOf (n ++ "@" ++ v) '@' = some n.toList.length :=
    (congrArg (Text.lastIndexOf · '@') (named_text n v)).trans (Text.lastIndexOf_append hv)
  have hpos : 0 < n.toList.length := by
    apply List.length_pos_of_ne_nil
    intro hnil
    exact hn (String.toList_injective hnil)
  rw [opName, opVersion, hindex]
  dsimp only
  rw [if_pos hpos, if_pos hpos, Text.sliceTo, Text.sliceFrom, named_text, String.toList_ofList]
  constructor
  · rw [List.take_left]
    exact String.ofList_toList
  · rw [List.drop_append, List.drop_eq_nil_of_le (by omega)]
    simp

/-- Nothing stands before the last `@` of it. -/
def Nameless (op : String) : Prop := opName op = op ∧ opVersion op = "1"

/-- An op is read as its name and its version, unless it has no name. -/
lemma op_cases (op : String) :
    Nameless op ∨ ∃ n v, n ≠ "" ∧ '@' ∉ v.toList ∧ op = n ++ "@" ++ v := by
  by_cases hmem : '@' ∈ op.toList
  · obtain ⟨b, a, hsplit, hb⟩ := List.eq_append_cons_of_mem (List.mem_reverse.mpr hmem)
    have hop : op = String.ofList a.reverse ++ "@" ++ String.ofList b.reverse := by
      apply String.toList_injective
      rw [named_text, String.toList_ofList, String.toList_ofList, String.toList_ofList]
      simpa using congrArg List.reverse hsplit
    have hlast : '@' ∉ (String.ofList b.reverse).toList := by simpa using hb
    by_cases hname : String.ofList a.reverse = ""
    · left
      have hindex : Text.lastIndexOf op '@' = some 0 := by
        rw [hop, named_text, hname]
        exact Text.lastIndexOf_append (a := []) hlast
      simp [Nameless, opName, opVersion, hindex]
    · exact Or.inr ⟨_, _, hname, hlast, hop⟩
  · left
    simp [Nameless, opName, opVersion, Text.lastIndexOf_eq_none hmem]

end Names

section Landing

variable {k k' : Kernel} {id : String}

def pins (k : Kernel) (name : String) : List GenerationPin := (k.tools.generations.get? name).getD []

lemma resolve_eq (k : Kernel) (name range : String) :
    k.tools.resolve name range = (pins k name).reverse.find? fun pin => matchesRange pin.version range := rfl

/-- Nodes stay, offers are added for an op, and generations are published behind the others. -/
structure Lands (k k' : Kernel) (id : String) (ops : List String) : Prop where
  nodes : ∀ x, k.graph.nodes.has x = true → k'.graph.nodes.has x = true
  offers : ∀ op x, x ∈ k'.graph.whoOffers op ↔ x ∈ k.graph.whoOffers op ∨ op ∈ ops ∧ x = id
  nodup : (∀ op, (k.graph.whoOffers op).Nodup) → ∀ op, (k'.graph.whoOffers op).Nodup
  pins : ∀ name, pins k' name =
    pins k name ++ (ops.filter fun op => opName op = name).map fun op => ⟨opVersion op, id⟩

lemma Lands.refl (k : Kernel) (id : String) : Lands k k id [] where
  nodes _ h := h
  offers _ _ := by simp
  nodup h := h
  pins _ := by simp

lemma Lands.trans {k'' : Kernel} {ops more : List String} (h : Lands k k' id ops) (h' : Lands k' k'' id more) :
    Lands k k'' id (ops ++ more) where
  nodes x hx := h'.nodes x (h.nodes x hx)
  offers op x := by
    rw [h'.offers, h.offers, List.mem_append]
    tauto
  nodup hk := h'.nodup (h.nodup hk)
  pins name := by rw [h'.pins, h.pins, List.filter_append, List.map_append, List.append_assoc]

lemma lands_upsertNode (k : Kernel) (n : GraphNode) (id : String) : Lands k (k.upsertNode n) id [] where
  nodes x hx := by
    change (k.graph.nodes.set n.id n).has x = true
    simp [hx]
  offers op x := by
    have hoffers : (k.upsertNode n).graph.whoOffers op = k.graph.whoOffers op := get?_ensureSet _ _ _
    rw [hoffers]
    simp
  nodup h op := by
    have hoffers : (k.upsertNode n).graph.whoOffers op = k.graph.whoOffers op := get?_ensureSet _ _ _
    rw [hoffers]
    exact h op
  pins _ := by simp [pins, Kernel.upsertNode]

lemma has_upsertNode (k : Kernel) (n : GraphNode) : (k.upsertNode n).graph.nodes.has n.id = true := by
  change (k.graph.nodes.set n.id n).has n.id = true
  simp

/-- What a grant between known nodes adds. -/
lemma grant_spec {source target capability : String} (kind : EdgeKind) (hs : k.graph.nodes.has source = true)
    (ht : k.graph.nodes.has target = true) (hc : k.graph.nodes.has capability = true) :
    ∃ k', k.grant source target capability kind = .ok k' ∧ k'.graph.nodes = k.graph.nodes ∧ k'.tools = k.tools ∧
      ∀ op, k'.graph.whoOffers op = if kind = .offer ∧ op = capability
        then insertOnce (k.graph.whoOffers capability) target else k.graph.whoOffers op := by
  have hgrant : ∃ k', k.grant source target capability kind = .ok k' ∧ k'.graph.nodes = k.graph.nodes ∧
      k'.tools = k.tools ∧ k'.graph.offerors =
        if kind = .offer then CapabilityGraph.addTo k.graph.offerors capability target else k.graph.offerors := by
    have hv := k.audit.signer.verify_sign
    simp [Kernel.grant, CapabilityGraph.grant, AuditLog.record, AuditLog.verify, hs, ht, hc, hv, Except.map]
  obtain ⟨k', hk', hnodes, htools, hofferors⟩ := hgrant
  refine ⟨k', hk', hnodes, htools, fun op => ?_⟩
  rw [CapabilityGraph.whoOffers, hofferors]
  cases kind with
  | hold => rfl
  | offer =>
    rw [if_pos rfl, CapabilityGraph.addTo, OrderedMap.get?_set]
    by_cases hop : op = capability
    · simp [hop, CapabilityGraph.whoOffers]
    · simp [hop, CapabilityGraph.whoOffers]

lemma lands_offer (op : String) (hid : k.graph.nodes.has id = true) :
    ∃ k', k.offer id op = .ok k' ∧ Lands k k' id [op] := by
  have hup := lands_upsertNode k { id := op, kind := .capability } id
  obtain ⟨granted, hgranted, hnodes, htools, hoffers⟩ := grant_spec .offer (hup.nodes _ hid) (hup.nodes _ hid)
    (has_upsertNode k { id := op, kind := .capability })
  have hwho : ∀ x, (granted.publish (opName op) (opVersion op) id).graph.whoOffers x =
      if x = op then insertOnce (k.graph.whoOffers op) id else k.graph.whoOffers x := by
    intro x
    have hold : ∀ y, (k.upsertNode { id := op, kind := .capability }).graph.whoOffers y = k.graph.whoOffers y :=
      fun y => get?_ensureSet _ _ _
    change granted.graph.whoOffers x = _
    rw [hoffers, hold, hold]
    simp
  refine ⟨granted.publish (opName op) (opVersion op) id, ?_, ?_, ?_, ?_, ?_⟩
  · rw [Kernel.offer, hgranted]
    rfl
  · intro x hx
    change granted.graph.nodes.has x = true
    rw [hnodes]
    exact hup.nodes x hx
  · intro x y
    rw [hwho]
    split_ifs with hx
    · rw [mem_insertOnce, hx]
      simp
    · simp [hx]
  · intro hnodup x
    rw [hwho]
    split_ifs
    · exact nodup_insertOnce (hnodup op)
    · exact hnodup x
  · intro name
    change ((granted.tools.generations.set (opName op) _).get? name).getD [] = _
    rw [OrderedMap.get?_set, htools]
    by_cases hname : opName op = name
    · simp [hname, pins, Kernel.upsertNode]
    · simp [hname, Ne.symm hname, pins, Kernel.upsertNode]

lemma lands_hold (cap : String) (hid : k.graph.nodes.has id = true) :
    ∃ k', k.hold id cap = .ok k' ∧ Lands k k' id [] := by
  let held := if Text.startsWith cap "port:" then Text.sliceFrom cap "port:".length else cap
  let known := if k.graph.nodes.has held then k else k.upsertNode { id := held, kind := .capability }
  have hknown : Lands k known id [] ∧ known.graph.nodes.has held = true := by
    by_cases hhas : k.graph.nodes.has held = true
    · have heq : known = k := if_pos hhas
      rw [heq]
      exact ⟨.refl k id, hhas⟩
    · have heq : known = k.upsertNode { id := held, kind := .capability } := if_neg hhas
      rw [heq]
      exact ⟨lands_upsertNode _ _ _, has_upsertNode _ _⟩
  obtain ⟨granted, hgranted, hnodes, htools, hoffers⟩ := grant_spec .hold (hknown.1.nodes _ hid)
    (hknown.1.nodes _ hid) hknown.2
  have hwho : ∀ x, granted.graph.whoOffers x = known.graph.whoOffers x := fun x => by simpa using hoffers x
  have hlands : Lands known granted id [] := by
    refine ⟨fun x hx => ?_, fun x y => ?_, fun hnodup x => ?_, fun name => ?_⟩
    · rw [hnodes]
      exact hx
    · rw [hwho]
      simp
    · rw [hwho]
      exact hnodup x
    · rw [pins, htools]
      simp [pins]
  exact ⟨granted, hgranted, hknown.1.trans hlands⟩

lemma lands_offers (ops : List String) (hid : k.graph.nodes.has id = true) :
    ∃ k', ops.foldlM (fun k op => k.offer id op) k = .ok k' ∧ Lands k k' id ops := by
  induction ops generalizing k with
  | nil => exact ⟨k, rfl, .refl k id⟩
  | cons op rest ih =>
    obtain ⟨k₁, hfirst, hlands⟩ := lands_offer op hid
    obtain ⟨k₂, hrest, hmore⟩ := ih (hlands.nodes _ hid)
    refine ⟨k₂, ?_, hlands.trans hmore⟩
    rw [List.foldlM_cons, hfirst]
    exact hrest

lemma lands_holds (caps : List String) (hid : k.graph.nodes.has id = true) :
    ∃ k', caps.foldlM (fun k cap => k.hold id cap) k = .ok k' ∧ Lands k k' id [] := by
  induction caps generalizing k with
  | nil => exact ⟨k, rfl, .refl k id⟩
  | cons cap rest ih =>
    obtain ⟨k₁, hfirst, hlands⟩ := lands_hold cap hid
    obtain ⟨k₂, hrest, hmore⟩ := ih (hlands.nodes _ hid)
    refine ⟨k₂, ?_, hlands.trans hmore⟩
    rw [List.foldlM_cons, hfirst]
    exact hrest

/-- No grant of a registration is refused. -/
lemma Kernel.enter_ok (k : Kernel) (e : CompositionEntry) (m : PluginManifest) :
    ∃ k', k.enter e m = .ok k' ∧ Lands k k' e.id e.grant.contracts := by
  let n : GraphNode :=
    { id := e.id, kind := .principal
      granularity := some (m.granularity.getD .atomic)
      extractionCandidate := m.extractionCandidate }
  have hup := lands_upsertNode k n e.id
  obtain ⟨k₁, hoffers, hlands⟩ := lands_offers e.grant.contracts (has_upsertNode k n)
  obtain ⟨k₂, hholds, hmore⟩ := lands_holds e.grant.capabilities (hlands.nodes _ (has_upsertNode k n))
  refine ⟨k₂, ?_, ?_⟩
  · rw [Kernel.enter, hoffers]
    exact hholds
  · simpa using (hup.trans hlands).trans hmore

end Landing

section Registering

/-- How an entry comes to the router: started at boot, left dormant, or spawned on the first touch of its id. -/
inductive Registration
  | eager (entry : CompositionEntry) (tokens : OrderedMap String String)
  | dormant (entry : CompositionEntry) (tokens : OrderedMap String String)
  | respawn (id : String)

def PortRouter.enlist (manifests : String → PluginManifest) (R : PortRouter) : Registration → PortRouter
  | .eager entry tokens => R.register entry (manifests entry.id) tokens
  | .dormant entry tokens => R.registerDormant entry (manifests entry.id) tokens
  | .respawn id =>
    match R.spawner.dormant.get? id with
    | none => R
    | some d => R.register d.entry d.manifest d.tokens

def PortRouter.enlistAll (manifests : String → PluginManifest) (R : PortRouter) (regs : List Registration) :
    PortRouter :=
  regs.foldl (PortRouter.enlist manifests) R

def Registration.enrolled? : Registration → Option CompositionEntry
  | .eager entry _ => some entry
  | .dormant entry _ => some entry
  | .respawn _ => none

def keepFirst (firsts : List CompositionEntry) (e : CompositionEntry) : List CompositionEntry :=
  if e.id ∈ firsts.map CompositionEntry.id then firsts else firsts ++ [e]

def firstOfEachId (es : List CompositionEntry) : List CompositionEntry := es.foldl keepFirst []

def registered (regs : List Registration) : List CompositionEntry := regs.filterMap Registration.enrolled?

def Grants (es : List CompositionEntry) (op id : String) : Prop :=
  ∃ e ∈ es, e.id = id ∧ op ∈ e.grant.contracts

def generations (firsts : List CompositionEntry) (name : String) : List GenerationPin :=
  firsts.flatMap fun e => (e.grant.contracts.filter fun op => opName op = name).map fun op => ⟨opVersion op, e.id⟩

/-- The offers and the generations of a kernel are those of some entries. -/
structure Landed (firsts : List CompositionEntry) (k : Kernel) : Prop where
  offers : ∀ op x, x ∈ k.graph.whoOffers op ↔ Grants firsts op x
  nodup : ∀ op, (k.graph.whoOffers op).Nodup
  pins : ∀ name, pins k name = generations firsts name

/-- What registrations leave: routes by what any entry grants, offers and generations by the first entry of each
id. -/
structure Enrolled (manifests : String → PluginManifest) (es firsts : List CompositionEntry) (S : Routes) :
    Prop where
  given : ∀ id m, S.manifests.get? id = some m → m = manifests id
  known : ∀ e ∈ es, S.manifests.get? e.id = some (manifests e.id)
  routes : ∀ op id, S.opRoute.get? op = some id → Grants es op id
  routed : ∀ op id, Grants es op id → (S.opRoute.get? op).isSome = true
  seen : S.graphSeen = firsts.map CompositionEntry.id
  kernel : ∃ k, S.kernel = some k ∧ Landed firsts k

lemma grants_append {es : List CompositionEntry} {e : CompositionEntry} {op id : String} :
    Grants (es ++ [e]) op id ↔ Grants es op id ∨ e.id = id ∧ op ∈ e.grant.contracts := by
  simp only [Grants, List.mem_append, List.mem_singleton]
  constructor
  · rintro ⟨f, hf | rfl, hrest⟩
    · exact Or.inl ⟨f, hf, hrest⟩
    · exact Or.inr hrest
  · rintro (⟨f, hf, hrest⟩ | hrest)
    · exact ⟨f, Or.inl hf, hrest⟩
    · exact ⟨e, Or.inr rfl, hrest⟩

lemma Landed.enter {firsts : List CompositionEntry} {k k' : Kernel} {e : CompositionEntry} (h : Landed firsts k)
    (hk : Lands k k' e.id e.grant.contracts) : Landed (firsts ++ [e]) k' where
  offers op x := by
    rw [hk.offers, h.offers, grants_append]
    tauto
  nodup := hk.nodup h.nodup
  pins name := by
    rw [hk.pins, h.pins]
    simp [generations]

lemma get?_addRoutes (ops : List String) (id op : String) (m : OrderedMap String String) :
    (ops.foldl (fun m op => m.set op id) m).get? op = if op ∈ ops then some id else m.get? op := by
  induction ops generalizing m with
  | nil => simp
  | cons first rest ih =>
    rw [List.foldl_cons, ih, OrderedMap.get?_set]
    by_cases hrest : op ∈ rest
    · simp [hrest]
    · by_cases hfirst : op = first
      · simp [hfirst]
      · simp [hrest, hfirst]

/-- The routes before the graph is looked at. -/
def tabled (S : Routes) (e : CompositionEntry) (m : PluginManifest) : Routes :=
  ((({ S with manifests := S.manifests.set e.id m } : Routes).addRoutes e.id e.grant.contracts).addRisks
    m).addPriorities m

lemma enrol_seen {S : Routes} {k : Kernel} {e : CompositionEntry} (m : PluginManifest) (hk : S.kernel = some k)
    (hseen : e.id ∈ S.graphSeen) : (S.enrol e m).graphSeen = S.graphSeen ∧ (S.enrol e m).kernel = some k := by
  have htabled : (tabled S e m).kernel = some k := hk
  have henrol : S.enrol e m = tabled S e m := by
    change (tabled S e m).registerGraph e m = tabled S e m
    rw [Routes.registerGraph, htabled]
    exact if_pos hseen
  rw [henrol]
  exact ⟨rfl, hk⟩

lemma enrol_fresh {S : Routes} {k : Kernel} {e : CompositionEntry} (m : PluginManifest) (hk : S.kernel = some k)
    (hfresh : e.id ∉ S.graphSeen) : (S.enrol e m).graphSeen = S.graphSeen ++ [e.id] ∧
      ∃ k', (S.enrol e m).kernel = some k' ∧ Lands k k' e.id e.grant.contracts := by
  obtain ⟨k', hk', hlands⟩ := Kernel.enter_ok k e m
  have htabled : (tabled S e m).kernel = some k := hk
  have henrol : S.enrol e m =
      { tabled S e m with graphSeen := S.graphSeen ++ [e.id], kernel := some k' } := by
    change (tabled S e m).registerGraph e m = _
    rw [Routes.registerGraph, htabled]
    dsimp only
    rw [hk']
    exact if_neg hfresh
  rw [henrol]
  exact ⟨rfl, k', rfl, hlands⟩

/-- What an entry adds to the routes, whether it is new or not. -/
lemma Enrolled.enrol {manifests : String → PluginManifest} {es firsts : List CompositionEntry} {S : Routes}
    (h : Enrolled manifests es firsts S) (e : CompositionEntry) :
    Enrolled manifests (es ++ [e]) (keepFirst firsts e) (S.enrol e (manifests e.id)) := by
  obtain ⟨k, hk, hlanded⟩ := h.kernel
  have hroute : ∀ op, (S.enrol e (manifests e.id)).opRoute.get? op =
      if op ∈ e.grant.contracts then some e.id else S.opRoute.get? op := by
    intro op
    have htable : (S.enrol e (manifests e.id)).opRoute =
        e.grant.contracts.foldl (fun m op => m.set op e.id) S.opRoute := by
      unfold Routes.enrol Routes.registerGraph
      split
      · rfl
      · split_ifs
        · rfl
        · split <;> rfl
    rw [htable, get?_addRoutes]
  have hmanifest : ∀ id, (S.enrol e (manifests e.id)).manifests.get? id =
      if id = e.id then some (manifests e.id) else S.manifests.get? id := by
    intro id
    rw [Routes.enrol_manifests, OrderedMap.get?_set]
  refine ⟨fun id m hm => ?_, fun f hf => ?_, fun op id hop => ?_, fun op id hop => ?_, ?_, ?_⟩
  · rw [hmanifest] at hm
    split_ifs at hm with hid
    · rw [hid]
      exact (Option.some.inj hm).symm
    · exact h.given id m hm
  · rw [hmanifest]
    split_ifs with hid
    · rw [hid]
    · obtain hold | hnew := List.mem_append.mp hf
      · exact h.known f hold
      · exact absurd (congrArg CompositionEntry.id (List.mem_singleton.mp hnew)) hid
  · rw [hroute] at hop
    rw [grants_append]
    split_ifs at hop with hmem
    · exact Or.inr ⟨Option.some.inj hop, hmem⟩
    · exact Or.inl (h.routes op id hop)
  · rw [hroute]
    split_ifs with hmem
    · rfl
    · obtain hold | hnew := grants_append.mp hop
      · exact h.routed op id hold
      · exact absurd hnew.2 hmem
  · by_cases hseen : e.id ∈ firsts.map CompositionEntry.id
    · rw [(enrol_seen _ hk (h.seen ▸ hseen)).1, keepFirst, if_pos hseen, h.seen]
    · rw [(enrol_fresh _ hk (h.seen ▸ hseen)).1, keepFirst, if_neg hseen, h.seen, List.map_append]
      rfl
  · by_cases hseen : e.id ∈ firsts.map CompositionEntry.id
    · rw [keepFirst, if_pos hseen]
      exact ⟨k, (enrol_seen _ hk (h.seen ▸ hseen)).2, hlanded⟩
    · rw [keepFirst, if_neg hseen]
      obtain ⟨k', hk', hlands⟩ := (enrol_fresh (manifests e.id) hk (h.seen ▸ hseen)).2
      exact ⟨k', hk', hlanded.enter hlands⟩

/-- An entry that is registered again leaves what was there. -/
lemma Enrolled.again {manifests : String → PluginManifest} {es firsts : List CompositionEntry} {S : Routes}
    (h : Enrolled manifests es firsts S) {e : CompositionEntry} (he : e ∈ es)
    (hfirst : e.id ∈ firsts.map CompositionEntry.id) :
    Enrolled manifests es firsts (S.enrol e (manifests e.id)) := by
  have henrol := h.enrol e
  have hsame : ∀ op id, Grants (es ++ [e]) op id ↔ Grants es op id := by
    intro op id
    rw [grants_append, or_iff_left_iff_imp]
    exact fun hgrant => ⟨e, he, hgrant⟩
  rw [keepFirst, if_pos hfirst] at henrol
  refine ⟨henrol.given, fun f hf => henrol.known f (List.mem_append_left _ hf), fun op id hop => ?_,
    fun op id hop => ?_, henrol.seen, henrol.kernel⟩
  · exact (hsame op id).mp (henrol.routes op id hop)
  · exact henrol.routed op id ((hsame op id).mpr hop)

lemma mem_keepFirst {firsts : List CompositionEntry} {e f : CompositionEntry} (h : f ∈ keepFirst firsts e) :
    f ∈ firsts ∨ f = e := by
  unfold keepFirst at h
  split_ifs at h
  · exact Or.inl h
  · simpa using h

lemma id_mem_keepFirst {firsts : List CompositionEntry} {e : CompositionEntry} {id : String}
    (h : id ∈ firsts.map CompositionEntry.id ∨ id = e.id) :
    id ∈ (keepFirst firsts e).map CompositionEntry.id := by
  unfold keepFirst
  split_ifs with hseen
  · obtain hold | rfl := h
    · exact hold
    · exact hseen
  · rw [List.map_append, List.mem_append]
    obtain hold | rfl := h
    · exact Or.inl hold
    · exact Or.inr (List.mem_singleton_self _)

lemma firstOfEachId_append (es : List CompositionEntry) (e : CompositionEntry) :
    firstOfEachId (es ++ [e]) = keepFirst (firstOfEachId es) e := by
  rw [firstOfEachId, List.foldl_append]
  rfl

lemma firstOfEachId_spec (es : List CompositionEntry) :
    (∀ e ∈ firstOfEachId es, e ∈ es) ∧ (∀ e ∈ es, e.id ∈ (firstOfEachId es).map CompositionEntry.id) ∧
      ((firstOfEachId es).map CompositionEntry.id).Nodup := by
  induction es using List.reverseRecOn with
  | nil => exact ⟨nofun, nofun, List.nodup_nil⟩
  | append_singleton es e ih =>
    obtain ⟨hsub, hids, hnodup⟩ := ih
    rw [firstOfEachId_append]
    refine ⟨fun f hf => ?_, fun f hf => ?_, ?_⟩
    · obtain hold | rfl := mem_keepFirst hf
      · exact List.mem_append_left _ (hsub f hold)
      · exact List.mem_append_right _ (List.mem_singleton_self _)
    · obtain hold | hnew := List.mem_append.mp hf
      · exact id_mem_keepFirst (Or.inl (hids f hold))
      · rw [List.mem_singleton.mp hnew]
        exact id_mem_keepFirst (Or.inr rfl)
    · unfold keepFirst
      split_ifs with hseen
      · exact hnodup
      · rw [List.map_append, List.nodup_append']
        exact ⟨hnodup, List.nodup_singleton _, by simpa using hseen⟩

/-- A router on which some entries are registered. -/
structure Enlisted (manifests : String → PluginManifest) (es : List CompositionEntry) (R : PortRouter) : Prop where
  dormant : ∀ id d, R.spawner.dormant.get? id = some d → d.entry ∈ es ∧ d.manifest = manifests d.entry.id
  routes : Enrolled manifests es (firstOfEachId es) R.routes

lemma Enlisted.add {manifests : String → PluginManifest} {es : List CompositionEntry} {R : PortRouter}
    (h : Enlisted manifests es R) (reg : Registration) :
    Enlisted manifests (es ++ reg.enrolled?.toList) (R.enlist manifests reg) := by
  have hmore : ∀ e id d, R.spawner.dormant.get? id = some d → d.entry ∈ es ++ [e] ∧
      d.manifest = manifests d.entry.id := fun e id d hd =>
    ⟨List.mem_append_left _ (h.dormant id d hd).1, (h.dormant id d hd).2⟩
  cases reg with
  | eager e tokens => exact ⟨hmore e, (firstOfEachId_append es e).symm ▸ h.routes.enrol e⟩
  | dormant e tokens =>
    refine ⟨fun id d hd => ?_, (firstOfEachId_append es e).symm ▸ h.routes.enrol e⟩
    have hlookup := (OrderedMap.get?_set _ _ _ _).symm.trans hd
    split_ifs at hlookup
    · cases hlookup
      exact ⟨List.mem_append_right _ (List.mem_singleton_self _), rfl⟩
    · exact hmore e id d hlookup
  | respawn id =>
    change Enlisted manifests (es ++ []) (PortRouter.enlist manifests R (.respawn id))
    rw [List.append_nil, PortRouter.enlist]
    cases hd : R.spawner.dormant.get? id with
    | none => exact h
    | some d =>
      obtain ⟨hmem, hmanifest⟩ := h.dormant id d hd
      refine ⟨h.dormant, ?_⟩
      change Enrolled manifests es (firstOfEachId es) (R.routes.enrol d.entry d.manifest)
      rw [hmanifest]
      exact h.routes.again hmem ((firstOfEachId_spec es).2.1 d.entry hmem)

lemma Enlisted.addAll {manifests : String → PluginManifest} {es : List CompositionEntry} {R : PortRouter}
    (h : Enlisted manifests es R) (regs : List Registration) :
    Enlisted manifests (es ++ registered regs) (R.enlistAll manifests regs) := by
  induction regs generalizing es R with
  | nil => simpa [registered, PortRouter.enlistAll] using h
  | cons reg rest ih =>
    have hrest := ih (h.add reg)
    have hsplit : es ++ registered (reg :: rest) = es ++ reg.enrolled?.toList ++ registered rest := by
      rw [List.append_assoc]
      cases hentry : reg.enrolled? with
      | none => simp [registered, hentry]
      | some e => simp [registered, hentry]
    rw [hsplit]
    exact hrest

/-- Without a kernel the registrations leave the same table. -/
lemma enlistAll_table (manifests : String → PluginManifest) {R T : PortRouter} (regs : List Registration)
    (hdormant : R.spawner.dormant = T.spawner.dormant) (hroutes : R.routes.opRoute = T.routes.opRoute)
    (hkernel : T.routes.kernel = none) :
    (R.enlistAll manifests regs).routes.opRoute = (T.enlistAll manifests regs).routes.opRoute ∧
      (T.enlistAll manifests regs).routes.kernel = none := by
  have htable : ∀ (S : Routes) (e : CompositionEntry) (m : PluginManifest), (S.enrol e m).opRoute =
      e.grant.contracts.foldl (fun m op => m.set op e.id) S.opRoute := by
    intro S e m
    change ((tabled S e m).registerGraph e m).opRoute = _
    unfold Routes.registerGraph
    split
    · rfl
    · split_ifs
      · rfl
      · split <;> rfl
  have hnone : ∀ (S : Routes) (e : CompositionEntry) (m : PluginManifest), S.kernel = none →
      (S.enrol e m).kernel = none := by
    intro S e m hS
    have htabled : (tabled S e m).kernel = none := hS
    change ((tabled S e m).registerGraph e m).kernel = none
    rw [Routes.registerGraph, htabled]
    exact htabled
  induction regs generalizing R T with
  | nil => exact ⟨hroutes, hkernel⟩
  | cons reg rest ih =>
    have hstep : ∀ (e : CompositionEntry) (m : PluginManifest),
        (R.routes.enrol e m).opRoute = (T.routes.enrol e m).opRoute := fun e m => by
      rw [htable, htable, hroutes]
    cases reg with
    | eager e tokens => exact ih hdormant (hstep _ _) (hnone _ _ _ hkernel)
    | dormant e tokens =>
      refine ih ?_ (hstep _ _) (hnone _ _ _ hkernel)
      change R.spawner.dormant.set _ _ = T.spawner.dormant.set _ _
      rw [hdormant]
    | respawn id =>
      cases hd : T.spawner.dormant.get? id with
      | none =>
        have hR : R.enlist manifests (.respawn id) = R := by rw [PortRouter.enlist, hdormant, hd]
        have hT : T.enlist manifests (.respawn id) = T := by rw [PortRouter.enlist, hd]
        refine ih ?_ ?_ ?_
        · rw [hR, hT]
          exact hdormant
        · rw [hR, hT]
          exact hroutes
        · rw [hT]
          exact hkernel
      | some d =>
        have hR : R.enlist manifests (.respawn id) = R.register d.entry d.manifest d.tokens := by
          rw [PortRouter.enlist, hdormant, hd]
        have hT : T.enlist manifests (.respawn id) = T.register d.entry d.manifest d.tokens := by
          rw [PortRouter.enlist, hd]
        refine ih ?_ ?_ ?_
        · rw [hR, hT]
          exact hdormant
        · rw [hR, hT]
          exact hstep _ _
        · rw [hT]
          exact hnone _ _ _ hkernel

lemma lands_hold_edge {k k' : Kernel} {source target capability : String} (id : String)
    (h : k.grant source target capability .hold = .ok k') : Lands k k' id [] := by
  unfold Kernel.grant CapabilityGraph.grant at h
  dsimp only at h
  rw [if_neg (by decide : ¬EdgeKind.hold = .offer), if_neg (by decide : ¬EdgeKind.hold = .offer)] at h
  split_ifs at h
  · cases h
  · cases h
  · cases h
  · cases h
  · cases h
    exact ⟨fun _ hx => hx, fun op x => by simp [CapabilityGraph.whoOffers], fun hnodup => hnodup, fun name => by
      simp [pins]⟩

/-- The kernel of a boot offers nothing yet. -/
lemma bootstrapKernel_landed {signer : Signer} {k : Kernel} (h : bootstrapKernel signer = .ok k) : Landed [] k := by
  let empty : Kernel := { graph := {}, audit := { signer }, state := {}, tools := {} }
  have hnodes : ∀ (ns : List GraphNode) (k₀ : Kernel), Lands k₀ (ns.foldl Kernel.upsertNode k₀) "" [] := by
    intro ns
    induction ns with
    | nil => exact fun k₀ => .refl k₀ ""
    | cons n rest ih => exact fun k₀ => (lands_upsertNode k₀ n "").trans (ih _)
  have hedges : ∀ (es : List (String × String)) (k₀ k₁ : Kernel),
      es.foldlM (fun k e => k.grant e.1 e.2 Genesis.selfDescribe .hold) k₀ = .ok k₁ → Lands k₀ k₁ "" [] := by
    intro es
    induction es with
    | nil =>
      intro k₀ k₁ hk
      cases hk
      exact .refl k₀ ""
    | cons e rest ih =>
      intro k₀ k₁ hk
      rw [List.foldlM_cons] at hk
      obtain ⟨k₂, hfirst, hrest⟩ := Json.bind_eq_ok hk
      exact (lands_hold_edge "" hfirst).trans (ih k₂ k₁ hrest)
  have hlands : Lands empty k "" [] := (hnodes Genesis.nodes empty).trans (hedges Genesis.closing _ _ h)
  have hnone : ∀ op, empty.graph.whoOffers op = [] := fun op => rfl
  refine ⟨fun op x => ?_, hlands.nodup fun op => ?_, fun name => ?_⟩
  · rw [hlands.offers, hnone]
    simp [Grants]
  · rw [hnone]
    exact List.nodup_nil
  · rw [hlands.pins]
    rfl

lemma enlisted_start (manifests : String → PluginManifest) {signer : Signer} {k : Kernel}
    (h : bootstrapKernel signer = .ok k) : Enlisted manifests [] { routes := { kernel := some k } } where
  dormant := nofun
  routes := ⟨nofun, nofun, nofun, fun _ _ hgrant => by simp [Grants] at hgrant, rfl, k, rfl, bootstrapKernel_landed h⟩

end Registering

end VivimOmega.Host

import VivimOmega.Host.Routing
import VivimOmega.Vault.Canon
import VivimOmega.Library.HashChain

/-! The audit chain behind the capability graph: one signed record for each edge, in the order of the edges. -/

namespace VivimOmega.Host

open Library Contracts Library.Json Library.Sha256

section Chain

def auditChain (signer : Signer) : HashChain SignedGrant SignedGrant String where
  fields g := g
  stored g := signer.hashPayload g.payload
  back g := g.payload.prevHash
  hash g _ := signer.hashPayload g.payload
  ext _ _ h _ _ := h

namespace AuditLog

variable (a : AuditLog)

lemma headHash_eq : a.headHash = (auditChain a.signer).head genesisPrev a.entries := by
  cases hlist : a.entries using List.reverseRecOn with
  | nil => simp [headHash, hlist, HashChain.head]
  | append_singleton rest g =>
    rw [HashChain.head_append]
    simp [headHash, hlist, auditChain]

lemma chainFrom_iff (d : String) (es : List SignedGrant) :
    a.chainFrom d es = true ↔ (auditChain a.signer).Chained d es ∧ ∀ g ∈ es, a.verify g = true := by
  induction es generalizing d with
  | nil => simp [chainFrom, HashChain.Chained]
  | cons g rest ih =>
    have hback : (auditChain a.signer).back g = g.payload.prevHash := rfl
    have hhash : (auditChain a.signer).hash g d = a.signer.hashPayload g.payload := rfl
    simp only [chainFrom, HashChain.Chained, Bool.and_eq_true, decide_eq_true_eq, ih, hback, List.forall_mem_cons]
    constructor
    · rintro ⟨⟨hprev, hg⟩, hchain, hrest⟩
      exact ⟨⟨hprev, rfl, hchain⟩, hg, hrest⟩
    · rintro ⟨⟨hprev, _, hchain⟩, hg, hrest⟩
      exact ⟨⟨hprev, hg⟩, hchain, hrest⟩

end AuditLog

end Chain

section Charting

variable {k k' : Kernel}

def Edge.listing (e : Edge) : String × String × EdgeKind := (e.target, e.capability, e.kind)

/-- Every edge has its record and every record its edge. -/
structure Bound (k : Kernel) : Prop where
  recorded : k.audit.entries = k.graph.edges.map Edge.grant
  named : ∀ e ∈ k.graph.edges, e.grant.payload.target = e.target ∧ e.grant.payload.capability = e.capability
  chained : (auditChain k.audit.signer).Chained AuditLog.genesisPrev k.audit.entries
  signed : ∀ g ∈ k.audit.entries, g.signature = k.audit.signer.signJson g.payload

lemma Bound.verifies (h : Bound k) : ∀ g ∈ k.audit.entries, k.audit.verify g = true := by
  intro g hg
  rw [AuditLog.verify, h.signed g hg]
  exact k.audit.signer.verify_sign g.payload

lemma Bound.verifyChain (h : Bound k) : k.audit.verifyChain = true :=
  (k.audit.chainFrom_iff _ _).mpr ⟨h.chained, h.verifies⟩

/-- The edges that a stretch of registrations draws. -/
structure Charts (k k' : Kernel) (drawn : List (String × String × EdgeKind)) : Prop where
  edges : k'.graph.edges.map Edge.listing = k.graph.edges.map Edge.listing ++ drawn
  signer : k'.audit.signer = k.audit.signer
  state : k'.state = k.state
  bound : Bound k → Bound k'

lemma Charts.refl (k : Kernel) : Charts k k [] where
  edges := (List.append_nil _).symm
  signer := rfl
  state := rfl
  bound h := h

lemma Charts.trans {k'' : Kernel} {drawn more : List (String × String × EdgeKind)} (h : Charts k k' drawn)
    (h' : Charts k' k'' more) : Charts k k'' (drawn ++ more) where
  edges := by rw [h'.edges, h.edges, List.append_assoc]
  signer := h'.signer.trans h.signer
  state := h'.state.trans h.state
  bound hk := h'.bound (h.bound hk)

lemma Charts.of_same (hedges : k'.graph.edges = k.graph.edges) (haudit : k'.audit = k.audit)
    (hstate : k'.state = k.state) : Charts k k' [] where
  edges := by rw [hedges, List.append_nil]
  signer := congrArg AuditLog.signer haudit
  state := hstate
  bound h := by
    refine ⟨?_, ?_, ?_, ?_⟩
    · rw [haudit, hedges]
      exact h.recorded
    · rw [hedges]
      exact h.named
    · rw [haudit]
      exact h.chained
    · rw [haudit]
      exact h.signed

lemma charts_grant {source target capability : String} {kind : EdgeKind}
    (h : k.grant source target capability kind = .ok k') : Charts k k' [(target, capability, kind)] := by
  let record := k.audit.record source target capability
  have hsplit : k'.audit = record.1 ∧ k'.state = k.state ∧
      k'.graph.edges = k.graph.edges ++ [{ target, capability, kind, grant := record.2 }] := by
    unfold Kernel.grant CapabilityGraph.grant at h
    dsimp only at h
    split_ifs at h
    all_goals cases h
    all_goals exact ⟨rfl, rfl, rfl⟩
  obtain ⟨haudit, hstate, hedges⟩ := hsplit
  have hentries : record.1.entries = k.audit.entries ++ [record.2] := rfl
  refine ⟨?_, ?_, hstate, fun hk => ⟨?_, ?_, ?_, ?_⟩⟩
  · rw [hedges, List.map_append]
    rfl
  · rw [haudit]
    rfl
  · rw [haudit, hentries, hedges, hk.recorded, List.map_append]
    rfl
  · rw [hedges]
    intro e he
    obtain hold | hnew := List.mem_append.mp he
    · exact hk.named e hold
    · rw [List.mem_singleton.mp hnew]
      exact ⟨rfl, rfl⟩
  · rw [haudit, hentries]
    exact ((auditChain k.audit.signer).chained_append _ _ _).mpr ⟨hk.chained, k.audit.headHash_eq, rfl⟩
  · rw [haudit, hentries]
    intro g hg
    obtain hold | hnew := List.mem_append.mp hg
    · exact hk.signed g hold
    · rw [List.mem_singleton.mp hnew]
      rfl

lemma charts_foldlM {α : Type} {f : Kernel → α → Except String Kernel} {drawn : α → String × String × EdgeKind}
    (hf : ∀ k k' x, f k x = .ok k' → Charts k k' [drawn x]) {xs : List α} (h : xs.foldlM f k = .ok k') :
    Charts k k' (xs.map drawn) := by
  induction xs generalizing k with
  | nil =>
    cases h
    exact .refl _
  | cons x rest ih =>
    rw [List.foldlM_cons] at h
    obtain ⟨k₁, hfirst, hrest⟩ := Json.bind_eq_ok h
    exact (hf k k₁ x hfirst).trans (ih hrest)

lemma charts_offer {id op : String} (h : k.offer id op = .ok k') : Charts k k' [(id, op, .offer)] := by
  obtain ⟨k₁, hgrant, hk'⟩ := Json.bind_eq_ok h
  cases hk'
  have hpublish : Charts k₁ (k₁.publish (opName op) (opVersion op) id) [] := .of_same rfl rfl rfl
  have hnode : Charts k (k.upsertNode { id := op, kind := .capability }) [] := .of_same rfl rfl rfl
  exact (hnode.trans (charts_grant hgrant)).trans hpublish

/-- The node that a granted capability is held under. -/
def heldNode (cap : String) : String :=
  if Text.startsWith cap "port:" then Text.sliceFrom cap "port:".length else cap

lemma charts_hold {id cap : String} (h : k.hold id cap = .ok k') : Charts k k' [(id, heldNode cap, .hold)] := by
  change (if k.graph.nodes.has (heldNode cap) then k
    else k.upsertNode { id := heldNode cap, kind := .capability }).grant id id (heldNode cap) .hold = .ok k' at h
  split_ifs at h
  · exact charts_grant h
  · have hnode : Charts k (k.upsertNode { id := heldNode cap, kind := .capability }) [] := .of_same rfl rfl rfl
    exact hnode.trans (charts_grant h)

/-- What the grant of an entry lists: an offer for each contract, a hold for each capability. -/
def listings (e : CompositionEntry) : List (String × String × EdgeKind) :=
  e.grant.contracts.map (fun op => (e.id, op, .offer)) ++
    e.grant.capabilities.map (fun cap => (e.id, heldNode cap, .hold))

lemma charts_enter {e : CompositionEntry} {m : PluginManifest} (h : k.enter e m = .ok k') :
    Charts k k' (listings e) := by
  obtain ⟨k₁, hoffers, hholds⟩ := Json.bind_eq_ok h
  have hnode : Charts k (k.upsertNode
    { id := e.id, kind := .principal, granularity := some (m.granularity.getD .atomic),
      extractionCandidate := m.extractionCandidate }) [] := .of_same rfl rfl rfl
  have hfirst := charts_foldlM (f := fun k op => k.offer e.id op) (fun _ _ _ => charts_offer) hoffers
  have hsecond := charts_foldlM (f := fun k cap => k.hold e.id cap) (fun _ _ _ => charts_hold) hholds
  exact hnode.trans (hfirst.trans hsecond)

end Charting

section Booted

def Genesis.closure : List (String × String × EdgeKind) :=
  Genesis.closing.map fun e => (e.2, Genesis.selfDescribe, .hold)

lemma bootstrapKernel_bound {signer : Signer} {k : Kernel} (h : bootstrapKernel signer = .ok k) :
    Bound k ∧ k.graph.edges.map Edge.listing = Genesis.closure ∧ k.audit.signer = signer ∧ k.state = {} := by
  let empty : Kernel := { graph := {}, audit := { signer }, state := {}, tools := {} }
  have hnodes : ∀ (ns : List GraphNode) (k₀ : Kernel), Charts k₀ (ns.foldl Kernel.upsertNode k₀) [] := by
    intro ns
    induction ns with
    | nil => exact fun k₀ => .refl k₀
    | cons n rest ih =>
      intro k₀
      have hfirst : Charts k₀ (k₀.upsertNode n) [] := .of_same rfl rfl rfl
      exact hfirst.trans (ih _)
  have hcharts : Charts empty k Genesis.closure :=
    (hnodes Genesis.nodes empty).trans (charts_foldlM
      (f := fun k (e : String × String) => k.grant e.1 e.2 Genesis.selfDescribe .hold) (fun _ _ _ => charts_grant) h)
  have hempty : Bound empty := ⟨rfl, fun e he => absurd he List.not_mem_nil, trivial,
    fun g hg => absurd hg List.not_mem_nil⟩
  exact ⟨hcharts.bound hempty, hcharts.edges, hcharts.signer, hcharts.state⟩

/-- What an entry draws when it is enrolled: its listings the first time, nothing later. -/
lemma charts_enrol {manifests : String → PluginManifest} {es firsts : List CompositionEntry} {S : Routes} {k : Kernel}
    (h : Enrolled manifests es firsts S) (hk : S.kernel = some k) (e : CompositionEntry) (m : PluginManifest) :
    ∃ k' more, (S.enrol e m).kernel = some k' ∧ keepFirst firsts e = firsts ++ more ∧
      Charts k k' (more.flatMap listings) := by
  by_cases hseen : e.id ∈ firsts.map CompositionEntry.id
  · refine ⟨k, [], (enrol_seen m hk (h.seen ▸ hseen)).2, ?_, .refl k⟩
    rw [keepFirst, if_pos hseen, List.append_nil]
  · obtain ⟨k', hk', _⟩ := Kernel.enter_ok k e m
    have htabled : (tabled S e m).kernel = some k := hk
    have hfresh : e.id ∉ (tabled S e m).graphSeen := by
      change e.id ∉ S.graphSeen
      rw [h.seen]
      exact hseen
    refine ⟨k', [e], ?_, ?_, ?_⟩
    · change ((tabled S e m).registerGraph e m).kernel = some k'
      rw [Routes.registerGraph, htabled]
      dsimp only
      rw [if_neg hfresh, hk']
    · rw [keepFirst, if_neg hseen]
    · simpa using charts_enter hk'

lemma charts_enlist {manifests : String → PluginManifest} {es : List CompositionEntry} {R : PortRouter} {k : Kernel}
    (h : Enlisted manifests es R) (hk : R.routes.kernel = some k) (reg : Registration) :
    ∃ k' more, (R.enlist manifests reg).routes.kernel = some k' ∧
      firstOfEachId (es ++ reg.enrolled?.toList) = firstOfEachId es ++ more ∧ Charts k k' (more.flatMap listings) := by
  cases reg with
  | eager e tokens =>
    obtain ⟨k', more, hk', hmore, hcharts⟩ := charts_enrol h.routes hk e (manifests e.id)
    exact ⟨k', more, hk', (firstOfEachId_append es e).trans hmore, hcharts⟩
  | dormant e tokens =>
    obtain ⟨k', more, hk', hmore, hcharts⟩ := charts_enrol h.routes hk e (manifests e.id)
    exact ⟨k', more, hk', (firstOfEachId_append es e).trans hmore, hcharts⟩
  | respawn id =>
    have hsame : firstOfEachId (es ++ (Registration.respawn id).enrolled?.toList) = firstOfEachId es ++ [] := by
      simp [Registration.enrolled?]
    cases hd : R.spawner.dormant.get? id with
    | none =>
      have henlist : R.enlist manifests (.respawn id) = R := by rw [PortRouter.enlist, hd]
      rw [henlist]
      exact ⟨k, [], hk, hsame, .refl k⟩
    | some d =>
      -- a dormant entry has been enrolled, so its id has been seen
      have henlist : R.enlist manifests (.respawn id) = R.register d.entry d.manifest d.tokens := by
        rw [PortRouter.enlist, hd]
      have hseen : d.entry.id ∈ R.routes.graphSeen := by
        rw [h.routes.seen]
        exact (firstOfEachId_spec es).2.1 d.entry (h.dormant id d hd).1
      rw [henlist]
      exact ⟨k, [], (enrol_seen d.manifest hk hseen).2, hsame, .refl k⟩

lemma charts_enlistAll {manifests : String → PluginManifest} {es : List CompositionEntry} {R : PortRouter} {k : Kernel}
    (h : Enlisted manifests es R) (hk : R.routes.kernel = some k) (regs : List Registration) :
    ∃ k' more, (R.enlistAll manifests regs).routes.kernel = some k' ∧
      firstOfEachId (es ++ registered regs) = firstOfEachId es ++ more ∧ Charts k k' (more.flatMap listings) := by
  induction regs generalizing es R k with
  | nil => exact ⟨k, [], hk, by simp [registered], .refl k⟩
  | cons reg rest ih =>
    obtain ⟨k₁, first, hk₁, hfirst, hcharts⟩ := charts_enlist h hk reg
    obtain ⟨k₂, more, hk₂, hmore, hcharts'⟩ := ih (h.add reg) hk₁
    have hsplit : es ++ registered (reg :: rest) = es ++ reg.enrolled?.toList ++ registered rest := by
      rw [List.append_assoc]
      cases hentry : reg.enrolled? with
      | none => simp [registered, hentry]
      | some e => simp [registered, hentry]
    refine ⟨k₂, first ++ more, hk₂, ?_, ?_⟩
    · rw [hsplit, hmore, hfirst, List.append_assoc]
    · rw [List.flatMap_append]
      exact hcharts.trans hcharts'

lemma firstOfEachId_sublist (es : List CompositionEntry) : (firstOfEachId es).Sublist es := by
  induction es using List.reverseRecOn with
  | nil => exact List.Sublist.refl _
  | append_singleton es e ih =>
    rw [firstOfEachId_append, keepFirst]
    split_ifs
    · exact ih.trans (List.sublist_append_left es [e])
    · exact ih.append (List.Sublist.refl [e])

/-- A kernel on which entries are registered after its boot. -/
lemma registered_bound {signer : Signer} {k₀ : Kernel} (hboot : bootstrapKernel signer = .ok k₀)
    (manifests : String → PluginManifest) (regs : List Registration) :
    ∃ k, (PortRouter.enlistAll manifests { routes := { kernel := some k₀ } } regs).routes.kernel = some k ∧ Bound k ∧
      k.audit.signer = signer ∧
        k.graph.edges.map Edge.listing = Genesis.closure ++ (firstOfEachId (registered regs)).flatMap listings := by
  obtain ⟨hbound, hclosure, hsigner, _⟩ := bootstrapKernel_bound hboot
  obtain ⟨k, more, hk, hmore, hcharts⟩ := charts_enlistAll (enlisted_start manifests hboot) rfl regs
  have hfirsts : firstOfEachId (registered regs) = more := by simpa [firstOfEachId] using hmore
  refine ⟨k, hk, hcharts.bound hbound, hcharts.signer.trans hsigner, ?_⟩
  rw [hcharts.edges, hclosure, hfirsts]

end Booted

section Forgery

def payloadValue (p : GrantPayload) : Value :=
  .object [(ofText "from", jsText p.source), (ofText "to", jsText p.target),
    (ofText "capability", jsText p.capability), (ofText "seq", .number (.ofInt p.seq)),
    (ofText "prevHash", jsText p.prevHash)]

lemma isJson_payloadValue (p : GrantPayload) : IsJson (payloadValue p) := by
  refine .object ?_ ?_
  · change ([ofText "from", ofText "to", ofText "capability", ofText "seq", ofText "prevHash"] : List JsString).Nodup
    decide
  intro m hm _
  simp only [List.mem_cons, List.not_mem_nil, or_false] at hm
  obtain rfl | rfl | rfl | rfl | rfl := hm
  · exact .string _
  · exact .string _
  · exact .string _
  · exact .number (isFinite_ofInt _)
  · exact .string _

/-- One text says one hash before. -/
lemma prevHash_of_canonicalJson {p q : GrantPayload}
    (h : canonicalJson (payloadValue p) = canonicalJson (payloadValue q)) : p.prevHash = q.prevHash := by
  have hagrees := (Vault.canonicalJson_eq_iff (isJson_payloadValue p) (isJson_payloadValue q)).mp h
  have hmem : ∀ r : GrantPayload, (ofText "prevHash", jsText r.prevHash) ∈ defined
      [(ofText "from", jsText r.source), (ofText "to", jsText r.target), (ofText "capability", jsText r.capability),
        (ofText "seq", .number (.ofInt r.seq)), (ofText "prevHash", jsText r.prevHash)] := by
    intro r
    simp [defined, jsText, Value.isUndefined]
  cases hagrees with
  | object _ hvalues =>
    have hvalue := hvalues _ (hmem p) _ (hmem q) rfl
    generalize hp : jsText p.prevHash = u at hvalue
    generalize hq : jsText q.prevHash = v at hvalue
    cases hvalue with
    | string s =>
      exact ofText_injective (Value.string.inj (hp.trans hq.symm))
    | _ => cases hp

/-- The hash of a payload is the SHA-256 of its canonical JSON. -/
def Signer.Hashes (signer : Signer) : Prop :=
  ∀ p, (canonicalJson (payloadValue p)).map sha256Text = .ok (signer.hashPayload p)

/-- What is hashed for the entries of a chain. -/
def hashedInputs (entries : List SignedGrant) : Set (List UInt8) :=
  {b | ∃ g ∈ entries, ∃ text, canonicalJson (payloadValue g.payload) = .ok text ∧ b = utf8 text}

lemma prevHash_of_hashPayload {signer : Signer} (hsha : signer.Hashes) {entries : List SignedGrant}
    (hfree : CollisionFree (hashedInputs entries)) {g g' : SignedGrant} (hg : g ∈ entries) (hg' : g' ∈ entries)
    (h : signer.hashPayload g.payload = signer.hashPayload g'.payload) : g.payload.prevHash = g'.payload.prevHash := by
  have htext : ∀ p, ∃ text, canonicalJson (payloadValue p) = .ok text ∧ sha256Text text = signer.hashPayload p := by
    intro p
    have hp := hsha p
    cases hcanon : canonicalJson (payloadValue p) with
    | error e =>
      rw [hcanon] at hp
      cases hp
    | ok text =>
      rw [hcanon] at hp
      exact ⟨text, rfl, Except.ok.inj hp⟩
  obtain ⟨text, hcanon, hhash⟩ := htext g.payload
  obtain ⟨text', hcanon', hhash'⟩ := htext g'.payload
  have hdigest : sha256 (utf8 text) = sha256 (utf8 text') :=
    String.ofList_injective (hhash.trans (h.trans hhash'.symm))
  have hsame := hfree.eq ⟨g, hg, text, hcanon, rfl⟩ ⟨g', hg', text', hcanon', rfl⟩ hdigest
  apply prevHash_of_canonicalJson
  rw [hcanon, hcanon', utf8_injective hsame]

/-- The walk accepts no list of recorded entries but a prefix of the chain. -/
lemma Bound.prefix_of_chainFrom {k : Kernel} (h : Bound k) (hsha : k.audit.signer.Hashes)
    (hfree : CollisionFree (hashedInputs k.audit.entries))
    (hgenesis : ∀ g ∈ k.audit.entries, k.audit.signer.hashPayload g.payload ≠ AuditLog.genesisPrev)
    {es : List SignedGrant} (hforge : ∀ g ∈ es, k.audit.verify g = true → g ∈ k.audit.entries)
    (haccepted : k.audit.chainFrom AuditLog.genesisPrev es = true) : es <+: k.audit.entries := by
  obtain ⟨hchained, hverifies⟩ := (k.audit.chainFrom_iff _ _).mp haccepted
  apply (auditChain k.audit.signer).prefix_of_mem h.chained hchained
  · exact fun g hg => hforge g hg (hverifies g hg)
  · exact fun g hg g' hg' => prevHash_of_hashPayload hsha hfree hg hg'
  · exact hgenesis

/-- The chain and the graph after any registrations on a booted kernel: as many records as edges, drawn once for each
listing of the entries that came first under their ids; and lists that the walk accepts are prefixes of the chain. -/
theorem audit_binds_graph {signer : Signer} {k₀ : Kernel} (hboot : bootstrapKernel signer = .ok k₀)
    (manifests : String → PluginManifest) (regs : List Registration) :
    ∃ (k : Kernel) (firsts : List CompositionEntry), (PortRouter.enlistAll manifests { routes := { kernel := some k₀ } } regs).routes.kernel = some k ∧
      k.audit.entries.length = k.graph.edges.length ∧ k.audit.entries = k.graph.edges.map Edge.grant ∧
        k.audit.verifyChain = true ∧ firsts.Sublist (registered regs) ∧ (firsts.map CompositionEntry.id).Nodup ∧
          k.graph.edges.map Edge.listing = Genesis.closure ++ firsts.flatMap listings ∧
            ∀ es : List SignedGrant, signer.Hashes → CollisionFree (hashedInputs k.audit.entries) →
              (∀ g ∈ k.audit.entries, signer.hashPayload g.payload ≠ AuditLog.genesisPrev) →
                (∀ g ∈ es, k.audit.verify g = true → g ∈ k.audit.entries) →
                  k.audit.chainFrom AuditLog.genesisPrev es = true → es <+: k.audit.entries := by
  obtain ⟨k, hk, hbound, hsigner, hedges⟩ := registered_bound hboot manifests regs
  have hcount : k.audit.entries.length = k.graph.edges.length := by rw [hbound.recorded, List.length_map]
  have hfirsts := firstOfEachId_sublist (registered regs)
  have hnodup := (firstOfEachId_spec (registered regs)).2.2
  refine ⟨k, firstOfEachId (registered regs), hk, hcount, hbound.recorded, hbound.verifyChain, hfirsts, hnodup, hedges,
    fun es hsha hfree hgenesis hforge haccepted => ?_⟩
  rw [← hsigner] at hsha hgenesis
  exact hbound.prefix_of_chainFrom hsha hfree hgenesis hforge haccepted

/-- Hashes as the vault's key pair does, and signs with the hash. -/
def canonSigner : Signer where
  keyId := "key"
  publicKey := "public"
  hashPayload p := ((canonicalJson (payloadValue p)).map sha256Text).toOption.getD ""
  signJson p := "signed " ++ ((canonicalJson (payloadValue p)).map sha256Text).toOption.getD ""
  verifyJson p signature := signature = "signed " ++ ((canonicalJson (payloadValue p)).map sha256Text).toOption.getD ""
  verify_sign _ := decide_eq_true rfl

lemma hashes_canonSigner : canonSigner.Hashes := by
  intro p
  have hcanon : canonicalJson (payloadValue p) = .ok (String.ofList (normal (payloadValue p)).render) := by
    rw [canonicalJson, (isJson_payloadValue p).canonicalText]
    rfl
  rw [canonSigner, hcanon]
  rfl

def touchedNotes : List Registration := [.dormant (notesEntry "notes" "add@1") .empty, .respawn "notes"]

def linkHashes (signer : Signer) (entries : List SignedGrant) : List String :=
  entries.map fun g => signer.hashPayload g.payload

lemma collisionFree_of_nodup {signer : Signer} (hsha : signer.Hashes) {entries : List SignedGrant}
    (h : (linkHashes signer entries).Nodup) : CollisionFree (hashedInputs entries) := by
  rintro b ⟨g, hg, text, hcanon, rfl⟩ b' ⟨g', hg', text', hcanon', rfl⟩ hdigest
  have hhash : ∀ (g : SignedGrant) text, canonicalJson (payloadValue g.payload) = .ok text →
      signer.hashPayload g.payload = sha256Text text := by
    intro g text hcanon
    have hp := hsha g.payload
    rw [hcanon] at hp
    exact (Except.ok.inj hp).symm
  have hsame : g = g' := by
    apply List.inj_on_of_nodup_map h hg hg'
    rw [hhash g text hcanon, hhash g' text' hcanon']
    exact congrArg String.ofList hdigest
  rw [hsame, hcanon'] at hcanon
  rw [Except.ok.inj hcanon]

/-- The payloads of the chain of notes with their hashes. -/
def notesLinks : List (GrantPayload × String) :=
  let first : GrantPayload := ⟨Genesis.kernel, Genesis.kernel, Genesis.selfDescribe, 0, AuditLog.genesisPrev⟩
  let second : GrantPayload := ⟨Genesis.kernel, Genesis.schema, Genesis.selfDescribe, 1,
    "be2c8fec57c566a3f8f0dc3a3bfb99ab65380359f8822130b72cb104df8d9808"⟩
  let third : GrantPayload := ⟨"notes", "notes", "add@1", 2,
    "5e7ee8f55de372e8b6ffa690b328d267cc895469b7e7ba14b29ef882bdbc21ab"⟩
  [(first, "be2c8fec57c566a3f8f0dc3a3bfb99ab65380359f8822130b72cb104df8d9808"),
    (second, "5e7ee8f55de372e8b6ffa690b328d267cc895469b7e7ba14b29ef882bdbc21ab"),
    (third, "65742ae71406bd1395bc568fec7f23d49e7eb70619de47261bb59e6e78379c59")]

lemma hashPayload_notesLinks : ∀ link ∈ notesLinks, canonSigner.hashPayload link.1 = link.2 := by
  simp only [notesLinks, List.forall_mem_cons, List.not_mem_nil, false_implies, implies_true, and_true]
  refine ⟨?_, ?_, ?_⟩
  · decide +kernel
  · decide +kernel
  · decide +kernel

def recalled (links : List (GrantPayload × String)) (p : GrantPayload) : String :=
  (links.lookup p).getD (canonSigner.hashPayload p)

lemma recalled_eq {links : List (GrantPayload × String)}
    (h : ∀ link ∈ links, canonSigner.hashPayload link.1 = link.2) : recalled links = canonSigner.hashPayload := by
  funext p
  induction links with
  | nil => rfl
  | cons link rest ih =>
    obtain ⟨hlink, hrest⟩ := List.forall_mem_cons.mp h
    rw [recalled, List.lookup_cons]
    split
    · next hsame => rw [Option.getD_some, eq_of_beq hsame, hlink]
    · exact ih hrest

/-- Signs with the hashes of the chain of notes at hand. -/
def notesSigner : Signer where
  keyId := "key"
  publicKey := "public"
  hashPayload := recalled notesLinks
  signJson p := "signed " ++ recalled notesLinks p
  verifyJson p signature := signature = "signed " ++ recalled notesLinks p
  verify_sign _ := decide_eq_true rfl

lemma notesSigner_eq : notesSigner = canonSigner := by
  simp only [notesSigner, recalled_eq hashPayload_notesLinks]
  rfl

/-- Notes registered at the boot and spawned on the first touch. -/
theorem audit_binds_notes : ∃ k₀ k : Kernel, bootstrapKernel canonSigner = .ok k₀ ∧
    (PortRouter.enlistAll (fun _ => depending []) { routes := { kernel := some k₀ } } touchedNotes).routes.kernel = some k ∧
      k.audit.entries.length = 3 ∧ k.graph.edges.length = 3 ∧
        k.audit.chainFrom AuditLog.genesisPrev (k.audit.entries.take 2) = true ∧
          k.audit.entries.take 2 <+: k.audit.entries := by
  have hrun : ((bootstrapKernel notesSigner).toOption.map fun k₀ =>
      (PortRouter.enlistAll (fun _ => depending []) { routes := { kernel := some k₀ } } touchedNotes).routes.kernel.map
        fun k => k.audit.entries.length = 3 && (linkHashes notesSigner k.audit.entries).Nodup &&
          !(linkHashes notesSigner k.audit.entries).contains AuditLog.genesisPrev &&
            k.audit.chainFrom AuditLog.genesisPrev (k.audit.entries.take 2)) = some (some true) := by
    decide
  rw [notesSigner_eq] at hrun
  obtain ⟨k₀, hboot, hrest⟩ := ok_of_toOption hrun
  obtain ⟨k, firsts, hk, hcount, _, _, _, _, _, hforgery⟩ :=
    audit_binds_graph hboot (fun _ => depending []) touchedNotes
  rw [hk] at hrest
  simp only [Option.map_some, Option.some.injEq, Bool.and_eq_true, decide_eq_true_eq] at hrest
  obtain ⟨⟨⟨hthree, hnodup⟩, hgenesis⟩, haccepted⟩ := hrest
  have hfree := collisionFree_of_nodup hashes_canonSigner hnodup
  have hnone : ∀ g ∈ k.audit.entries, canonSigner.hashPayload g.payload ≠ AuditLog.genesisPrev := by
    intro g hg heq
    have hmem : AuditLog.genesisPrev ∈ linkHashes canonSigner k.audit.entries := List.mem_map.mpr ⟨g, hg, heq⟩
    simp [hmem] at hgenesis
  refine ⟨k₀, k, hboot, hk, hthree, hcount.symm.trans hthree, haccepted, ?_⟩
  exact hforgery _ hashes_canonSigner hfree hnone (fun g hg _ => List.mem_of_mem_take hg) haccepted

end Forgery

end VivimOmega.Host

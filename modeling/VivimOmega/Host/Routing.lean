import VivimOmega.Host.Coverage
import VivimOmega.Host.Resolution

/-! Where the kernel and the table of routes send the calls of a verified composition. -/

namespace VivimOmega.Host

open Library Library.Json Library.Json.Value Library.Sha256 Contracts FileTree

section Accepted

variable {ed : Ed25519} {fs : FileSystem} {r : Recipe} {buildDir : Path} {key : String}
  {verified : OrderedMap String Manifest} {entries : List CompositionEntry}

/-- An entry of the recipe as it is handed to the router. -/
structure Reads (e : RecipeEntry) (entry : CompositionEntry) : Prop where
  id : entry.id = e.id
  source : entry.source = e.source
  manifestPath : entry.manifestPath = e.manifestPath
  manifestHash : entry.manifestHash = e.manifestHash
  contentHash : entry.contentHash = e.contentHash
  capabilities : e.capabilities = entry.grant.capabilities.map jsText
  contracts : e.contracts = entry.grant.contracts.map jsText
  bootPhase : entry.bootPhase = e.bootPhase

lemma sameKey_jsText {a b : String} : sameKey (jsText a) (jsText b) = true ↔ a = b := by
  rw [jsText, jsText, sameKey, decide_eq_true_eq]
  exact ofText_injective.eq_iff

/-- Without a conflict no op is granted twice. -/
lemma routedOpConflicts_nil (seen : List (String × String)) {pairs : List (String × String)}
    (h : routedOpConflicts (seen.map fun p => (jsText p.1, p.2)) (pairs.map fun p => (jsText p.1, p.2)) = []) :
    (pairs.map Prod.fst).Nodup ∧ ∀ p ∈ pairs, p.1 ∉ seen.map Prod.fst := by
  induction pairs generalizing seen with
  | nil => exact ⟨List.nodup_nil, nofun⟩
  | cons p rest ih =>
    rw [List.map_cons, routedOpConflicts] at h
    split at h
    · cases h
    · next hnone =>
      obtain ⟨hnodup, hfresh⟩ := ih (p :: seen) h
      have hhead : p.1 ∉ seen.map Prod.fst := by
        intro hmem
        obtain ⟨q, hq, hqp⟩ := List.mem_map.mp hmem
        have hkey := List.find?_eq_none.mp hnone (jsText q.1, q.2) (List.mem_map_of_mem hq)
        exact hkey (sameKey_jsText.mpr hqp)
      refine ⟨List.nodup_cons.mpr ⟨fun hmem => ?_, hnodup⟩, List.forall_mem_cons.mpr ⟨hhead, fun q hq hmem => ?_⟩⟩
      · obtain ⟨q, hq, hqp⟩ := List.mem_map.mp hmem
        exact hfresh q hq (hqp ▸ List.mem_cons_self)
      · exact hfresh q hq (List.mem_cons_of_mem _ hmem)

def grantedOps (entries : List CompositionEntry) : List (String × String) :=
  entries.flatMap fun e => e.grant.contracts.map fun op => (op, e.id)

lemma grantedOps_read {es : List RecipeEntry} (h : List.Forall₂ Reads es entries) :
    (es.flatMap fun e => e.contracts.map fun op => (op, e.id)) =
      (grantedOps entries).map fun p => (jsText p.1, p.2) := by
  induction h with
  | nil => rfl
  | @cons e entry _ rest hread _ ih =>
    have hcons : grantedOps (entry :: rest) = (entry.grant.contracts.map fun op => (op, entry.id)) ++ grantedOps rest :=
      rfl
    rw [List.flatMap_cons, ih, hcons, List.map_append, hread.contracts, List.map_map, List.map_map, ← hread.id]
    rfl

lemma accepted_nodup (h : verifyComposition ed fs r buildDir key = .ok ⟨verified, []⟩)
    (hread : List.Forall₂ Reads r.composition entries) : (entries.flatMap fun e => e.grant.contracts).Nodup := by
  obtain ⟨outs, _, hconclude⟩ := bind_eq_ok h
  have hrecipe := (concludeVerification_clean hconclude).1
  have hinvariants := (List.append_eq_nil_iff.mp hrecipe).2
  have hconflicts := (List.append_eq_nil_iff.mp hinvariants).2
  rw [grantedOps_read hread] at hconflicts
  have hops : (grantedOps entries).map Prod.fst = entries.flatMap fun e => e.grant.contracts := by
    rw [grantedOps, List.map_flatMap]
    simp [Function.comp_def]
  rw [← hops]
  exact (routedOpConflicts_nil [] hconflicts).1

/-- What is in the table of routes was declared, so it has an `@`. -/
def Versioned (op : String) : Prop := '@' ∈ op.toList

lemma contributedOps_versioned {contributions : Value} {kind : String} {ops : List String}
    (h : contributedOps contributions kind = .ok ops) : ∀ op ∈ ops, Versioned op := by
  unfold contributedOps at h
  split at h
  · cases h
    nofun
  · cases h
    nofun
  · obtain ⟨items, _, h⟩ := bind_eq_ok h
    intro op hop
    obtain ⟨c, _, hc⟩ := forall₂_mem (mapM_forall₂ h).flip hop
    obtain ⟨id, _, hc⟩ := bind_eq_ok hc
    cases hc
    simp [Versioned]

lemma routableOps_versioned {m : Manifest} {ops : List String} (h : routableOps m = .ok ops) :
    ∀ op ∈ ops, Versioned op := by
  obtain ⟨contract, hcontract, h⟩ := bind_eq_ok h
  obtain ⟨engine, hengine, h⟩ := bind_eq_ok h
  obtain ⟨provider, hprovider, h⟩ := bind_eq_ok h
  cases h
  intro op hop
  obtain hop | hop := List.mem_append.mp hop
  · obtain hop | hop := List.mem_append.mp hop
    · exact contributedOps_versioned hcontract op hop
    · exact contributedOps_versioned hengine op hop
  · exact contributedOps_versioned hprovider op hop

lemma routeOps_clean {e : RecipeEntry} {ops : List String} {declared : List Value} {opRoute : OrderedMap String String}
    (h : (routeOps e ops opRoute declared).2 = []) : ∀ d ∈ declared, ∃ op ∈ ops, stringOf d = some op := by
  induction declared generalizing opRoute with
  | nil => exact nofun
  | cons d rest ih =>
    rw [routeOps] at h
    split at h
    · next op hfind =>
      have hfound := List.find?_some hfind
      exact List.forall_mem_cons.mpr ⟨⟨op, List.mem_of_find?_eq_some hfind, of_decide_eq_true hfound⟩, ih h⟩
    · cases h

lemma buildRoutingTable_clean {es composition : List RecipeEntry} {table final : RoutingTable}
    (h : es.foldlM (routeEntry composition verified) table = .ok final) (hclean : final.errors = []) :
    table.errors = [] ∧ ∀ e ∈ es, ∀ d ∈ e.contracts, ∃ op, Versioned op ∧ stringOf d = some op := by
  induction es generalizing table with
  | nil =>
    cases h
    exact ⟨hclean, nofun⟩
  | cons e rest ih =>
    rw [List.foldlM_cons] at h
    obtain ⟨next, hnext, hrest⟩ := bind_eq_ok h
    obtain ⟨hnone, hall⟩ := ih hrest
    unfold routeEntry at hnext
    split at hnext
    · cases hnext
      simp at hnone
    · obtain ⟨ops, hops, hnext⟩ := bind_eq_ok hnext
      dsimp only at hnext
      obtain ⟨deps, _, hnext⟩ := bind_eq_ok hnext
      obtain ⟨unsatisfied, _, hnext⟩ := bind_eq_ok hnext
      cases hnext
      obtain ⟨hbefore, _⟩ := List.append_eq_nil_iff.mp hnone
      obtain ⟨htable, hgrants⟩ := List.append_eq_nil_iff.mp hbefore
      refine ⟨htable, List.forall_mem_cons.mpr ⟨fun d hd => ?_, hall⟩⟩
      obtain ⟨op, hop, hstring⟩ := routeOps_clean hgrants d hd
      exact ⟨op, routableOps_versioned hops op hop, hstring⟩

lemma accepted_versioned (h : verifyComposition ed fs r buildDir key = .ok ⟨verified, []⟩)
    (hread : List.Forall₂ Reads r.composition entries) :
    ∀ e ∈ entries, ∀ op ∈ e.grant.contracts, Versioned op := by
  obtain ⟨outs, _, hconclude⟩ := bind_eq_ok h
  unfold concludeVerification at hconclude
  dsimp only at hconclude
  split_ifs at hconclude with hnone
  · obtain ⟨table, htable, hconclude⟩ := bind_eq_ok hconclude
    have hclean : table.errors = [] := congrArg Verification.errors (Except.ok.inj hconclude)
    intro e he op hop
    obtain ⟨recipeEntry, hmem, hreads⟩ := forall₂_mem hread.flip he
    have hdeclared : jsText op ∈ recipeEntry.contracts := by
      rw [hreads.contracts]
      exact List.mem_map_of_mem hop
    obtain ⟨found, hversioned, hstring⟩ := (buildRoutingTable_clean htable hclean).2 recipeEntry hmem _ hdeclared
    have hsame : op = found := by simpa [jsText, stringOf, toText_ofText] using hstring
    exact hsame ▸ hversioned
  · exact absurd (congrArg Verification.errors (Except.ok.inj hconclude)) hnone

end Accepted

section Routing

variable {manifests : String → PluginManifest} {entries es firsts : List CompositionEntry} {S T : Routes}
  {k : Kernel} {op id principal : String}

/-- A dependency on the name of an op. -/
def Names (d : DependencyRef) (op : String) : Prop :=
  d.ref = "contract:" ++ op ∨ d.ref = "contract:" ++ opName op ∨ opName (Routes.stripContract d.ref) = opName op

def declaredRange (d : DependencyRef) : String := if d.range = "" then "*" else d.range

/-- One resolution is the other where an op is granted; elsewhere it takes a dependency that is declared on the name
of the op, and what it gives is granted, and in its range. -/
structure RoutesAlike (entries : List CompositionEntry) (S T : Routes) : Prop where
  granted : ∀ principal op id, Grants entries op id → S.resolveTarget principal op = T.resolveTarget principal op
  ungranted : ∀ principal op target, (∀ id, ¬ Grants entries op id) →
    S.resolveTarget principal op = some target → ∃ m d, S.manifests.get? principal = some m ∧
      d ∈ m.dependencies ∧ Names d op ∧ opName target.op = opName op ∧
        matchesRange (opVersion target.op) (declaredRange d) = true ∧ Grants entries target.op target.impl

/-- Each op without a name is granted no later than the op by which its generation is called. -/
def NamelessServed (firsts : List CompositionEntry) : Prop :=
  ∀ before e after, firsts = before ++ e :: after → ∀ op ∈ e.grant.contracts, Nameless op →
    ∃ f ∈ e :: after, op ++ "@1" ∈ f.grant.contracts

lemma callerRange_some {range : String} (h : S.callerRange principal op = some range) :
    ∃ m d, S.manifests.get? principal = some m ∧ d ∈ m.dependencies ∧ Names d op ∧ declaredRange d = range := by
  obtain ⟨d, hd, hrange⟩ := Option.map_eq_some_iff.mp h
  cases hm : S.manifests.get? principal with
  | none =>
    rw [hm] at hd
    cases hd
  | some m =>
    rw [hm] at hd
    have hnames := List.find?_some hd
    refine ⟨m, d, rfl, List.mem_of_find?_eq_some hd, ?_, hrange⟩
    simpa [Names, or_assoc] using hnames

lemma resolveTarget_table (h : T.kernel = none) (principal op : String) :
    T.resolveTarget principal op = (T.opRoute.get? op).map fun impl => ⟨impl, op⟩ := by
  rw [Routes.resolveTarget, h]

lemma resolveTarget_offered (hk : S.kernel = some k) (hoffers : k.graph.whoOffers op = [id]) :
    S.resolveTarget principal op = some ⟨id, op⟩ := by
  rw [Routes.resolveTarget, hk]
  dsimp only
  rw [hoffers]

lemma resolveTarget_unoffered (hk : S.kernel = some k) (hoffers : k.graph.whoOffers op = []) :
    S.resolveTarget principal op = (S.callerRange principal op).bind fun range =>
      (k.tools.resolve (opName op) range).map (Routes.pinned (opName op)) := by
  rw [Routes.resolveTarget, hk]
  dsimp only
  rw [hoffers]
  cases S.callerRange principal op <;> rfl

/-- An accepted composition: no op is granted twice, and none is empty. -/
structure Composed (entries : List CompositionEntry) : Prop where
  nodup : (entries.flatMap fun e => e.grant.contracts).Nodup
  versioned : ∀ e ∈ entries, ∀ op ∈ e.grant.contracts, Versioned op

lemma Composed.unique (h : Composed entries) {e f : CompositionEntry} (he : e ∈ entries) (hf : f ∈ entries)
    (hop : op ∈ e.grant.contracts) (hop' : op ∈ f.grant.contracts) : e = f := by
  by_contra hne
  have hsymm : Std.Symm (Function.onFun List.Disjoint fun e : CompositionEntry => e.grant.contracts) :=
    ⟨fun _ _ h _ ha hb => h hb ha⟩
  exact (List.nodup_flatMap.mp h.nodup).2.forall he hf hne hop hop'

lemma Composed.ne_empty (h : Composed entries) {e : CompositionEntry} (he : e ∈ entries)
    (hop : op ∈ e.grant.contracts) : op ≠ "" := by
  rintro rfl
  have hversioned := h.versioned e he "" hop
  simp [Versioned] at hversioned

lemma Grants.mono (hsub : ∀ e ∈ es, e ∈ entries) (h : Grants es op id) : Grants entries op id := by
  obtain ⟨e, he, hrest⟩ := h
  exact ⟨e, hsub e he, hrest⟩

/-- What the first entry of an id grants has one offer. -/
lemma Landed.offered (h : Landed firsts k) (hcomposed : Composed entries) (hsub : ∀ e ∈ firsts, e ∈ entries)
    (hgrant : Grants firsts op id) : k.graph.whoOffers op = [id] := by
  obtain ⟨e, he, rfl, hop⟩ := hgrant
  have hall : ∀ x ∈ k.graph.whoOffers op, x = e.id := by
    intro x hx
    obtain ⟨f, hf, rfl, hop'⟩ := (h.offers op x).mp hx
    rw [hcomposed.unique (hsub f hf) (hsub e he) hop' hop]
  have hmem : e.id ∈ k.graph.whoOffers op := (h.offers op e.id).mpr ⟨e, he, rfl, hop⟩
  have hperm : (k.graph.whoOffers op).Perm [e.id] := by
    rw [List.perm_ext_iff_of_nodup (h.nodup op) (List.nodup_singleton _)]
    intro x
    rw [List.mem_singleton]
    exact ⟨hall x, fun hx => hx ▸ hmem⟩
  exact List.perm_singleton.mp hperm

lemma Landed.unoffered (h : Landed firsts k) (hgrant : ∀ id, ¬ Grants firsts op id) :
    k.graph.whoOffers op = [] := by
  apply List.eq_nil_iff_forall_not_mem.mpr
  intro x hx
  exact hgrant x ((h.offers op x).mp hx)

lemma Landed.resolve (h : Landed firsts k) (name range : String) : k.tools.resolve name range =
    (generations firsts name).reverse.find? fun pin => matchesRange pin.version range := by
  rw [resolve_eq, h.pins]

lemma mem_generations {name : String} {pin : GenerationPin} : pin ∈ generations firsts name ↔
    ∃ e ∈ firsts, ∃ op ∈ e.grant.contracts, opName op = name ∧ pin = ⟨opVersion op, e.id⟩ := by
  simp only [generations, List.mem_flatMap, List.mem_map, List.mem_filter, decide_eq_true_eq]
  constructor
  · rintro ⟨e, he, op, ⟨hop, hname⟩, rfl⟩
    exact ⟨e, he, op, hop, hname, rfl⟩
  · rintro ⟨e, he, op, hop, hname, rfl⟩
    exact ⟨e, he, op, ⟨hop, hname⟩, rfl⟩

/-- Where an entry has a generation in the range, none before it is taken. -/
lemma find?_generations {before after : List CompositionEntry} {e : CompositionEntry} {name range : String}
    {pin : GenerationPin} (hop : op ∈ e.grant.contracts) (hname : opName op = name)
    (hrange : matchesRange (opVersion op) range = true)
    (h : ((generations (before ++ e :: after) name).reverse.find? fun pin => matchesRange pin.version range) =
      some pin) : pin ∈ generations (e :: after) name := by
  have hsplit : generations (before ++ e :: after) name = generations before name ++ generations (e :: after) name := by
    rw [generations, List.flatMap_append]
    rfl
  rw [hsplit, List.reverse_append, List.find?_append] at h
  cases hfind : (generations (e :: after) name).reverse.find? fun pin => matchesRange pin.version range with
  | none =>
    have hmem : (⟨opVersion op, e.id⟩ : GenerationPin) ∈ generations (e :: after) name :=
      mem_generations.mpr ⟨e, List.mem_cons_self, op, hop, hname, rfl⟩
    have hnot := List.find?_eq_none.mp hfind ⟨opVersion op, e.id⟩ (List.mem_reverse.mpr hmem)
    exact absurd hrange hnot
  | some found =>
    rw [hfind, Option.some_or] at h
    cases h
    exact List.mem_reverse.mp (List.mem_of_find?_eq_some hfind)

lemma nameless_text {op : String} (hop : op ≠ "") : opName (op ++ "@1") = op ∧ opVersion (op ++ "@1") = "1" := by
  have htext : op ++ "@1" = op ++ "@" ++ "1" := by
    rw [String.append_assoc]
    rfl
  rw [htext]
  exact opName_append hop (by decide)

/-- The generation that a range takes is that of an op which its entry grants. -/
lemma generation_granted (hcomposed : Composed entries) (hsub : ∀ e ∈ firsts, e ∈ entries)
    (hids : (firsts.map CompositionEntry.id).Nodup) (hserved : NamelessServed firsts) {name range : String}
    {pin : GenerationPin} (h : ((generations firsts name).reverse.find? fun pin =>
      matchesRange pin.version range) = some pin) :
    Grants firsts (name ++ "@" ++ pin.version) pin.impl ∧ opName (name ++ "@" ++ pin.version) = name ∧
      matchesRange (opVersion (name ++ "@" ++ pin.version)) range = true := by
  have hfound := List.find?_some h
  have hmatches : matchesRange pin.version range = true := hfound
  obtain ⟨e, he, op, hop, rfl, rfl⟩ := mem_generations.mp (List.mem_reverse.mp (List.mem_of_find?_eq_some h))
  obtain ⟨hname, hversion⟩ | ⟨n, v, hn, hv, rfl⟩ := op_cases op
  · -- the op is called by another text: the entry that grants that one is the same or a later one
    have htext := nameless_text (hcomposed.ne_empty (hsub e he) hop)
    dsimp only at h hmatches ⊢
    rw [hname, hversion] at h ⊢
    rw [hversion] at hmatches
    rw [show op ++ "@" ++ "1" = op ++ "@1" by rw [String.append_assoc]; rfl, htext.1, htext.2]
    refine ⟨?_, rfl, hmatches⟩
    obtain ⟨before, after, rfl⟩ := List.append_of_mem he
    obtain ⟨f, hf, hcalled⟩ := hserved before e after rfl op hop ⟨hname, hversion⟩
    obtain rfl | hf := List.mem_cons.mp hf
    · exact ⟨f, he, rfl, hcalled⟩
    · obtain ⟨between, later, rfl⟩ := List.append_of_mem hf
      have hsplit : before ++ e :: (between ++ f :: later) = (before ++ e :: between) ++ f :: later := by simp
      rw [hsplit] at h hids
      have hlater := find?_generations hcalled htext.1 (htext.2 ▸ hmatches) h
      obtain ⟨g, hg, _, _, _, hpin⟩ := mem_generations.mp hlater
      rw [List.map_append, List.nodup_append'] at hids
      have hid : e.id = g.id := congrArg GenerationPin.impl hpin
      exact absurd (List.mem_map.mpr ⟨g, hg, hid.symm⟩) (hids.2.2 (List.mem_map_of_mem (by simp)))
  · obtain ⟨hname, hversion⟩ := opName_append hn hv
    dsimp only
    rw [hversion] at hmatches
    rw [hname, hversion, hname, hversion]
    exact ⟨⟨e, he, rfl, hop⟩, rfl, hmatches⟩

/-- What the two ways are asked of, once everything is registered. -/
structure Settled (manifests : String → PluginManifest) (entries es firsts : List CompositionEntry) (S T : Routes) :
    Prop where
  composed : Composed entries
  covered : ∀ e, e ∈ es ↔ e ∈ entries
  enrolled : Enrolled manifests es firsts S
  sub : ∀ e ∈ firsts, e ∈ entries
  ids : (firsts.map CompositionEntry.id).Nodup
  bare : T.kernel = none
  table : S.opRoute = T.opRoute

lemma Settled.table_granted (h : Settled manifests entries es firsts S T) (hgrant : Grants entries op id)
    (principal : String) : T.resolveTarget principal op = some ⟨id, op⟩ := by
  have hes : Grants es op id := hgrant.mono fun e he => (h.covered e).mpr he
  obtain ⟨found, hfound⟩ := Option.isSome_iff_exists.mp (h.enrolled.routed op id hes)
  obtain ⟨e, he, rfl, hop⟩ := hgrant
  obtain ⟨f, hf, rfl, hop'⟩ := h.enrolled.routes op found hfound
  rw [resolveTarget_table h.bare, ← h.table, hfound, h.composed.unique ((h.covered f).mp hf) he hop' hop]
  rfl

lemma Settled.alike (h : Settled manifests entries es firsts S T)
    (hfirst : ∀ e ∈ entries, e.grant.contracts ≠ [] → e ∈ firsts) (hserved : NamelessServed firsts) :
    RoutesAlike entries S T where
  granted principal op id hgrant := by
    obtain ⟨k, hk, hlanded⟩ := h.enrolled.kernel
    rw [h.table_granted hgrant]
    obtain ⟨e, he, rfl, hop⟩ := hgrant
    have hmem : e ∈ firsts := hfirst e he (List.ne_nil_of_mem hop)
    exact resolveTarget_offered hk (hlanded.offered h.composed h.sub ⟨e, hmem, rfl, hop⟩)
  ungranted principal op target hgrant htarget := by
    obtain ⟨k, hk, hlanded⟩ := h.enrolled.kernel
    have hunoffered := hlanded.unoffered fun id hid => hgrant id (hid.mono h.sub)
    rw [resolveTarget_unoffered hk hunoffered] at htarget
    obtain ⟨range, hrange, htarget⟩ := Option.bind_eq_some_iff.mp htarget
    obtain ⟨pin, hpin, rfl⟩ := Option.map_eq_some_iff.mp htarget
    obtain ⟨m, d, hm, hd, hnames, hdeclared⟩ := callerRange_some hrange
    rw [hlanded.resolve] at hpin
    obtain ⟨hgranted, hname, hmatches⟩ := generation_granted h.composed h.sub h.ids hserved hpin
    exact ⟨m, d, hm, hd, hnames, hname, hdeclared ▸ hmatches, hgranted.mono h.sub⟩

/-- A manifest that declares dependencies and nothing else. -/
def depending (deps : List DependencyRef) : PluginManifest :=
  { id := "", entry := "", contributions := {}, dependencies := deps }

lemma callerRange_none (h : ∀ m, S.manifests.get? principal = some m → m.dependencies = []) :
    S.callerRange principal op = none := by
  cases hrange : S.callerRange principal op with
  | none => rfl
  | some range =>
    obtain ⟨m, d, hm, hd, _⟩ := callerRange_some hrange
    rw [h m hm] at hd
    cases hd

/-- An op that its entry has not brought to the graph is routed by the table alone. -/
lemma Settled.first_of_alike (h : Settled (fun _ => depending []) entries es firsts S T)
    (halike : RoutesAlike entries S T) : ∀ e ∈ entries, e.grant.contracts ≠ [] → e ∈ firsts := by
  intro e he hne
  by_contra hnot
  obtain ⟨op, hop⟩ := List.exists_mem_of_ne_nil _ hne
  obtain ⟨k, hk, hlanded⟩ := h.enrolled.kernel
  have hunoffered := hlanded.unoffered fun id hid => by
    obtain ⟨f, hf, _, hop'⟩ := hid
    exact hnot (h.composed.unique he (h.sub f hf) hop hop' ▸ hf)
  have hnone : S.resolveTarget "root" op = none := by
    rw [resolveTarget_unoffered hk hunoffered, callerRange_none fun m hm => ?_]
    · rfl
    · rw [h.enrolled.given _ m hm]
      rfl
  have hsame := halike.granted "root" op e.id ⟨e, he, rfl, hop⟩
  rw [hnone, h.table_granted ⟨e, he, rfl, hop⟩] at hsame
  cases hsame

/-- There is a version of an op that nobody grants. -/
lemma exists_ungranted (entries : List CompositionEntry) (name : String) :
    ∃ n : ℕ, ∀ id, ¬ Grants entries (name ++ "@" ++ n.repr) id := by
  have hinjective : Function.Injective fun n : ℕ => name ++ "@" ++ n.repr :=
    (Text.append_right_injective _).comp Text.repr_injective
  obtain ⟨op, ⟨n, rfl⟩, hop⟩ := (Set.infinite_range_of_injective hinjective).exists_notMem_finset
    (entries.flatMap fun e => e.grant.contracts).toFinset
  refine ⟨n, fun id hgrant => hop ?_⟩
  obtain ⟨e, he, _, hmem⟩ := hgrant
  exact List.mem_toFinset.mpr (List.mem_flatMap.mpr ⟨e, he, hmem⟩)

lemma digit_ne_at (n : ℕ) : '@' ∉ n.repr.toList := by
  intro hmem
  have hint := Text.mem_toString_int (n := (n : ℤ)) hmem
  revert hint
  decide

/-- The dependency on an op without a name, and on the version by which it is published. -/
def namelessDependency (op : String) : List DependencyRef := [⟨"contract:" ++ op, "1"⟩]

lemma matchesRange_one {version : String} : matchesRange version "1" = true ↔ version = "1" := by
  have hend : Text.endsWith "1" ".x" = false := by decide
  simp [matchesRange, hend]

lemma Settled.served_of_alike (hfirst : ∀ e ∈ entries, e.grant.contracts ≠ [] → e ∈ firsts)
    (h : ∀ deps, ∃ S T, Settled (fun _ => depending deps) entries es firsts S T ∧ RoutesAlike entries S T) :
    NamelessServed firsts := by
  rintro before e after rfl op hop ⟨hname, hversion⟩
  obtain ⟨S, T, hsettled, halike⟩ := h (namelessDependency op)
  obtain ⟨k, hk, hlanded⟩ := hsettled.enrolled.kernel
  have he : e ∈ before ++ e :: after := by simp
  have hentry := hsettled.sub e he
  have hne := hsettled.composed.ne_empty hentry hop
  obtain ⟨n, hungranted⟩ := exists_ungranted entries op
  have hopName := (opName_append hne (digit_ne_at n)).1
  -- the entry itself calls a version of its op that nobody grants
  have hrange : S.callerRange e.id (op ++ "@" ++ n.repr) = some "1" := by
    rw [Routes.callerRange, hsettled.enrolled.known e ((hsettled.covered e).mpr hentry), hopName]
    simp [depending, namelessDependency]
  have hmem : (⟨"1", e.id⟩ : GenerationPin) ∈ generations (before ++ e :: after) op :=
    mem_generations.mpr ⟨e, he, op, hop, hname, by rw [hversion]⟩
  cases hfind : (generations (before ++ e :: after) op).reverse.find? fun pin => matchesRange pin.version "1" with
  | none =>
    have hnot := List.find?_eq_none.mp hfind ⟨"1", e.id⟩ (List.mem_reverse.mpr hmem)
    exact absurd (matchesRange_one.mpr rfl) hnot
  | some pin =>
    have hmatches := List.find?_some hfind
    have hpin : pin.version = "1" := matchesRange_one.mp hmatches
    have hunoffered := hlanded.unoffered fun id hid => hungranted id (hid.mono hsettled.sub)
    have htarget : S.resolveTarget e.id (op ++ "@" ++ n.repr) = some ⟨pin.impl, op ++ "@1"⟩ := by
      rw [resolveTarget_unoffered hk hunoffered, hrange, Option.bind_some, hlanded.resolve, hopName, hfind,
        Option.map_some, Routes.pinned, hpin]
      rw [String.append_assoc]
      rfl
    obtain ⟨_, _, _, _, _, _, _, g, hg, hgid, hcalled⟩ := halike.ungranted _ _ _ hungranted htarget
    have hlater := find?_generations hop hname (hversion ▸ matchesRange_one.mpr rfl) hfind
    obtain ⟨f, hf, op', hop', hname', rfl⟩ := mem_generations.mp hlater
    have hfmem : f ∈ before ++ e :: after := List.mem_append_right _ hf
    obtain ⟨hsame, _⟩ | ⟨n, v, hn, hv, rfl⟩ := op_cases op'
    · have hself : op' = op := hsame.symm.trans hname'
      have hfe : f = e := hsettled.composed.unique (hsettled.sub f hfmem) hentry (hself ▸ hop') hop
      have hgmem := hfirst g hg (List.ne_nil_of_mem hcalled)
      have hge : g = e := List.inj_on_of_nodup_map hsettled.ids hgmem he (hfe ▸ hgid)
      exact ⟨e, List.mem_cons_self, hge ▸ hcalled⟩
    · obtain ⟨hnamed, hversioned⟩ := opName_append hn hv
      have hn' : n = op := hnamed.symm.trans hname'
      have hv' : v = "1" := hversioned.symm.trans hpin
      refine ⟨f, hf, ?_⟩
      rw [hn', hv', String.append_assoc] at hop'
      exact hop'

section Compositions

variable {ed : Ed25519} {fs : FileSystem} {r : Recipe} {buildDir : Path} {key : String}
  {verified : OrderedMap String Manifest} {signer : Signer} {regs : List Registration}

/-- The routes of a router that carries a kernel, and of one without, after the same registrations. -/
def kernelRoutes (k : Kernel) (manifests : String → PluginManifest) (regs : List Registration) : Routes :=
  (({ routes := { kernel := some k } } : PortRouter).enlistAll manifests regs).routes

def tableRoutes (manifests : String → PluginManifest) (regs : List Registration) : Routes :=
  (({} : PortRouter).enlistAll manifests regs).routes

lemma settled_of_verified (hverified : verifyComposition ed fs r buildDir key = .ok ⟨verified, []⟩)
    (hread : List.Forall₂ Reads r.composition entries) (hkernel : bootstrapKernel signer = .ok k)
    (hregs : ∀ e, e ∈ registered regs ↔ e ∈ entries) (manifests : String → PluginManifest) :
    Settled manifests entries (registered regs) (firstOfEachId (registered regs)) (kernelRoutes k manifests regs)
      (tableRoutes manifests regs) := by
  have henlisted := (enlisted_start manifests hkernel).addAll regs
  obtain ⟨hsub, _, hids⟩ := firstOfEachId_spec (registered regs)
  obtain ⟨htable, hnone⟩ := enlistAll_table manifests regs
    (R := { routes := { kernel := some k } }) (T := {}) rfl rfl rfl
  exact ⟨⟨accepted_nodup hverified hread, accepted_versioned hverified hread⟩, hregs, henlisted.routes,
    fun e he => (hregs e).mp (hsub e he), hids, hnone, htable⟩

/-- The two ways agree for all manifests of the callers just where each entry that grants an op is the first one of
its id to be registered, and ops without a name are served. -/
theorem graph_routing_iff (hverified : verifyComposition ed fs r buildDir key = .ok ⟨verified, []⟩)
    (hread : List.Forall₂ Reads r.composition entries) (hkernel : bootstrapKernel signer = .ok k)
    (hregs : ∀ e, e ∈ registered regs ↔ e ∈ entries) :
    (∀ manifests, RoutesAlike entries (kernelRoutes k manifests regs) (tableRoutes manifests regs)) ↔
      (∀ e ∈ entries, e.grant.contracts ≠ [] → e ∈ firstOfEachId (registered regs)) ∧
        NamelessServed (firstOfEachId (registered regs)) := by
  have hsettled := settled_of_verified hverified hread hkernel hregs
  constructor
  · intro halike
    have hfirst := (hsettled _).first_of_alike (halike _)
    exact ⟨hfirst, Settled.served_of_alike hfirst fun deps => ⟨_, _, hsettled _, halike _⟩⟩
  · rintro ⟨hfirst, hserved⟩ manifests
    exact (hsettled manifests).alike hfirst hserved

def notesLawManifest : String :=
  "\x7b\"manifestVersion\":\"1\",\"id\":\"vivim.law\",\"entry\":\"index.ts\"," ++
  "\"publisher\":\x7b\"keyId\":\"key\",\"signature\":\"signed by public\"\x7d\x7d"

def notesManifest : String :=
  "\x7b\"manifestVersion\":\"1\",\"id\":\"notes\",\"entry\":\"index.ts\",\"contributions\":\x7b\"contract\":" ++
  "[\x7b\"id\":\"add\",\"version\":\"1\"\x7d,\x7b\"id\":\"list\",\"version\":\"1\"\x7d]\x7d," ++
  "\"publisher\":\x7b\"keyId\":\"key\",\"signature\":\"signed by public\"\x7d\x7d"

def notesTree : FileTree :=
  .dir [("build", .dir [("law.json", .file (utf8 notesLawManifest)), ("notes.json", .file (utf8 notesManifest)),
    ("src", .dir [])])]

lemma wellFormed_notesTree : notesTree.WellFormed := by
  refine .dir (by decide) (by decide) ?_
  simp only [List.forall_mem_singleton]
  refine .dir (by decide) (by decide) ?_
  simp only [List.forall_mem_cons, List.not_mem_nil, false_implies, implies_true, and_true]
  refine ⟨.file _, .file _, .dir (by decide) (by decide) ?_⟩
  simp

def notesFiles : FileSystem := .ofTree notesTree wellFormed_notesTree

def notesHash : String := "sha256:cb28a4c05a33e46114187b17143d3228b734d7dc2e170e19a986bc872dfd9e11"

def emptyHash : String := "sha256:e3b0c44298fc1c149afbf4c8996fb92427ae41e4649b934ca495991b7852b855"

def notesLaw : CompositionEntry where
  id := "vivim.law"
  source := "src"
  manifestPath := "law.json"
  manifestHash := "sha256:7dfaaa09287eac24bc358085b511c2b5544bdace76a793a2925fc47dd0d7f1ef"
  contentHash := emptyHash
  grant := ⟨[], []⟩
  bootPhase := 0

def notesEntry (id op : String) : CompositionEntry where
  id
  source := "src"
  manifestPath := "notes.json"
  manifestHash := notesHash
  contentHash := emptyHash
  grant := ⟨[], [op]⟩
  bootPhase := 1

def written (e : CompositionEntry) : RecipeEntry :=
  ⟨e.id, e.source, e.manifestPath, e.manifestHash, e.contentHash, e.grant.capabilities.map jsText,
    e.grant.contracts.map jsText, e.bootPhase⟩

lemma reads_written (e : CompositionEntry) : Reads (written e) e :=
  ⟨rfl, rfl, rfl, rfl, rfl, rfl, rfl, rfl⟩

def entryValue (e : CompositionEntry) : Value :=
  .object [(ofText "id", jsText e.id), (ofText "manifestHash", jsText e.manifestHash),
    (ofText "contentHash", jsText e.contentHash),
    (ofText "grant", .object [(ofText "capabilities", .array (e.grant.capabilities.map jsText)),
      (ofText "contracts", .array (e.grant.contracts.map jsText))]),
    (ofText "bootPhase", if e.bootPhase = 0 then .number .zero else one), (ofText "source", jsText e.source),
    (ofText "manifestPath", jsText e.manifestPath)]

@[simp] lemma stringOf_jsText (s : String) : stringOf (jsText s) = some s := by
  rw [jsText, stringOf, toText_ofText]

/-- An entry is read back from what is written of it. -/
lemma parseEntry_entryValue {e : CompositionEntry} (hid : e.id ≠ "")
    (hmanifest : Text.startsWith e.manifestHash "sha256:" = true)
    (hcontent : Text.startsWith e.contentHash "sha256:" = true) (hphase : e.bootPhase ≤ 1) :
    parseEntry (entryValue e) = .ok (written e) := by
  have hidValue : property (entryValue e) "id" = .ok (jsText e.id) := rfl
  have hmanifestValue : optionalProperty (entryValue e) "manifestHash" = jsText e.manifestHash := rfl
  have hcontentValue : optionalProperty (entryValue e) "contentHash" = jsText e.contentHash := rfl
  have hgrant : optionalProperty (entryValue e) "grant" =
      .object [(ofText "capabilities", .array (e.grant.capabilities.map jsText)),
        (ofText "contracts", .array (e.grant.contracts.map jsText))] := rfl
  have hphaseValue : optionalProperty (entryValue e) "bootPhase" =
      if e.bootPhase = 0 then .number .zero else one := rfl
  have hnatural : naturalOf (if e.bootPhase = 0 then .number .zero else one) = some e.bootPhase := by
    split_ifs with hzero
    · rw [hzero]
      rfl
    · have hone : e.bootPhase = 1 := by omega
      rw [hone]
      decide
  have hsource : optionalProperty (entryValue e) "source" = jsText e.source := rfl
  have hpath : optionalProperty (entryValue e) "manifestPath" = jsText e.manifestPath := rfl
  have hcaps : ∀ caps contracts, optionalProperty (.object [(ofText "capabilities", .array caps),
      (ofText "contracts", .array contracts)]) "capabilities" = .array caps := fun _ _ => rfl
  have hcontracts : ∀ caps contracts, optionalProperty (.object [(ofText "capabilities", .array caps),
      (ofText "contracts", .array contracts)]) "contracts" = .array contracts := fun _ _ => rfl
  simp [parseEntry, hidValue, hmanifestValue, hcontentValue, hgrant, hphaseValue, hnatural, hsource, hpath, hcaps,
    hcontracts, hid, hmanifest, hcontent, required, require, ok_bind, isFalsy, arrayOf, written]
  rfl
def recipeValue (es : List CompositionEntry) : Value :=
  .object [(ofText "recipeVersion", one), (ofText "hashAlgo", jsText "sha256"), (ofText "name", jsText "notes"),
    (ofText "composition", .array (es.map entryValue)),
    (ofText "rootOfTrust", .object [(ofText "keyId", jsText "key"), (ofText "publicKey", jsText "public")]),
    (ofText "signature", jsText "signed by public")]

/-- The law, and entries that share a manifest. -/
def notesEntries (granted : List (String × String)) : List CompositionEntry :=
  notesLaw :: granted.map fun p => notesEntry p.1 p.2

lemma parseEntry_notesEntries {granted : List (String × String)} (h : ∀ p ∈ granted, p.1 ≠ "") :
    ((notesEntries granted).map entryValue).mapM parseEntry = .ok ((notesEntries granted).map written) := by
  have hlaw : parseEntry (entryValue notesLaw) = .ok (written notesLaw) :=
    parseEntry_entryValue (by decide) (by decide) (by decide) (by decide)
  have hnotes : ∀ id op, id ≠ "" → parseEntry (entryValue (notesEntry id op)) = .ok (written (notesEntry id op)) := by
    have hmanifest : Text.startsWith notesHash "sha256:" = true := by decide
    have hcontent : Text.startsWith emptyHash "sha256:" = true := by decide
    exact fun id op hid => parseEntry_entryValue hid hmanifest hcontent (le_refl 1)
  have hrest : ((granted.map fun p => notesEntry p.1 p.2).map entryValue).mapM parseEntry =
      .ok ((granted.map fun p => notesEntry p.1 p.2).map written) := by
    induction granted with
    | nil => rfl
    | cons p rest ih =>
      obtain ⟨hp, hrest⟩ := List.forall_mem_cons.mp h
      rw [List.map_cons, List.map_cons, List.mapM_cons, hnotes _ _ hp, ih hrest]
      rfl
  rw [notesEntries, List.map_cons, List.mapM_cons, hlaw, hrest]
  rfl

def notesRecipe (granted : List (String × String)) (h : ∀ p ∈ granted, p.1 ≠ "") : Recipe where
  name := "notes"
  composition := (notesEntries granted).map written
  rootOfTrust := ⟨"key", "public"⟩
  signature := "signed by public"
  value := recipeValue (notesEntries granted)
  read := by
    let v := recipeValue (notesEntries granted)
    have hversion : property v "recipeVersion" = .ok one := rfl
    have halgo : optionalProperty v "hashAlgo" = jsText "sha256" := rfl
    have hname : optionalProperty v "name" = jsText "notes" := rfl
    have hcomposition : optionalProperty v "composition" = .array ((notesEntries granted).map entryValue) := rfl
    have hroot : optionalProperty v "rootOfTrust" =
        .object [(ofText "keyId", jsText "key"), (ofText "publicKey", jsText "public")] := rfl
    have hkey : optionalProperty (optionalProperty v "rootOfTrust") "keyId" = jsText "key" := rfl
    have hpublic : optionalProperty (optionalProperty v "rootOfTrust") "publicKey" = jsText "public" := rfl
    have hsignature : optionalProperty v "signature" = jsText "signed by public" := rfl
    have hone : isOne one = true := by decide
    have hentries := parseEntry_notesEntries h
    rw [hroot] at hkey hpublic
    change readRecipe v = _
    simp [readRecipe, hversion, halgo, hname, hcomposition, hroot, hkey, hpublic, hsignature, hone, hentries,
      required, require, ok_bind, isFalsy, arrayOf]
    rfl

lemma reads_notesRecipe (granted : List (String × String)) (h : ∀ p ∈ granted, p.1 ≠ "") :
    List.Forall₂ Reads (notesRecipe granted h).composition (notesEntries granted) := by
  rw [show (notesRecipe granted h).composition = (notesEntries granted).map written from rfl, List.forall₂_map_left_iff]
  exact List.forall₂_same.mpr fun e _ => reads_written e

def notesManifestValue : Value :=
  .object [(ofText "manifestVersion", jsText "1"), (ofText "id", jsText "notes"), (ofText "entry", jsText "index.ts"),
    (ofText "contributions", .object [(ofText "contract", .array
      [.object [(ofText "id", jsText "add"), (ofText "version", jsText "1")],
        .object [(ofText "id", jsText "list"), (ofText "version", jsText "1")]])]),
    (ofText "publisher", .object [(ofText "keyId", jsText "key"), (ofText "signature", jsText "signed by public")])]

def notesPlugin : Manifest := ⟨"notes", "index.ts", .object (defaults (membersOf notesManifestValue))⟩

/-- The texts and the paths that the composition of notes is verified with. -/
structure NotesTexts : Prop where
  manifest : notesManifest = String.ofList notesManifestValue.render
  law : notesLawManifest = lawManifestText
  hash : "sha256:" ++ sha256Text notesManifest = notesHash
  lawSigned : verifyJson namingScheme (unsignedManifest lawManifest) "public" (publisherSignature lawManifest) = true
  signed : verifyJson namingScheme (unsignedManifest notesPlugin) "public" (publisherSignature notesPlugin) = true
  source : resolve ["build"] "src" = ["build", "src"]
  lawPath : join ["build"] "law.json" = ["build", "law.json"]
  path : join ["build"] "notes.json" = ["build", "notes.json"]

lemma notes_texts : NotesTexts := by
  constructor <;> decide +kernel

lemma notesManifest_parses : parseManifest notesManifest = .ok notesPlugin := by
  have htext := notes_texts.manifest
  have hplain : Plain notesManifestValue := by
    refine .object (by decide) ?_
    simp only [List.forall_mem_cons, List.not_mem_nil, false_implies, implies_true, and_true]
    refine ⟨.string _, .string _, .string _, .object (by decide) ?_, .object (by decide) ?_⟩
    · simp only [List.forall_mem_singleton]
      refine .array ?_
      simp only [List.forall_mem_cons, List.not_mem_nil, false_implies, implies_true, and_true]
      refine ⟨.object (by decide) ?_, .object (by decide) ?_⟩
      · simp only [List.forall_mem_cons, List.not_mem_nil, false_implies, implies_true, and_true]
        exact ⟨.string _, .string _⟩
      · simp only [List.forall_mem_cons, List.not_mem_nil, false_implies, implies_true, and_true]
        exact ⟨.string _, .string _⟩
    · simp only [List.forall_mem_cons, List.not_mem_nil, false_implies, implies_true, and_true]
      exact ⟨.string _, .string _⟩
  rw [parseManifest, htext, jsonParse_render hplain, ok_bind]
  rfl

/-- What the entries verify to, each by its own manifest. -/
lemma notesRecipe_verifies (granted : List (String × String)) (h : ∀ p ∈ granted, p.1 ≠ "") :
    verifyComposition namingScheme notesFiles (notesRecipe granted h) ["build"] "public" =
      concludeVerification namingScheme (notesRecipe granted h) "public"
        (⟨some lawManifest, []⟩ :: granted.map fun _ => ⟨some notesPlugin, []⟩) := by
  obtain ⟨_, hlawText, hnotesHash, hlawSigned, hnotesSigned, hsrc, hlawPath, hnotesPath⟩ := notes_texts
  have hsource : notesFiles.stat (resolve ["build"] "src") = some (.dir []) := by
    rw [hsrc]
    rfl
  have hlawRead : notesFiles.readFile (join ["build"] "law.json") = some (utf8 lawManifestText) := by
    rw [← hlawText, hlawPath]
    rfl
  have hnotesRead : notesFiles.readFile (join ["build"] "notes.json") = some (utf8 notesManifest) := by
    rw [hnotesPath]
    rfl
  have hlawName : Text.endsWith "law.json" "/" = false := by decide
  have hnotesName : Text.endsWith "notes.json" "/" = false := by decide
  have hlawEntry : verifyEntryWithRoot namingScheme notesFiles (written notesLaw) ["build"] "public" =
      .ok ⟨some lawManifest, []⟩ :=
    verifyEntry_empty hlawName hlawRead lawManifest_parses (manifestErrors_nil lawManifest_hash hlawSigned) hsource rfl
  have hnotesEntry : ∀ id op, verifyEntryWithRoot namingScheme notesFiles (written (notesEntry id op)) ["build"] "public" =
      .ok ⟨some notesPlugin, []⟩ :=
    fun _ _ => verifyEntry_empty hnotesName hnotesRead notesManifest_parses
      (manifestErrors_nil hnotesHash hnotesSigned) hsource rfl
  have hrest : ((granted.map fun p => notesEntry p.1 p.2).map written).mapM (fun e =>
      verifyEntryWithRoot namingScheme notesFiles e ["build"] "public") =
        .ok (granted.map fun _ => ⟨some notesPlugin, []⟩) := by
    clear h
    induction granted with
    | nil => rfl
    | cons p rest ih =>
      rw [List.map_cons, List.map_cons, List.mapM_cons, hnotesEntry, ih]
      rfl
  have hall : (notesRecipe granted h).composition.mapM (fun e => verifyEntryWithRoot namingScheme notesFiles e ["build"]
      (notesRecipe granted h).rootOfTrust.publicKey) =
        .ok (⟨some lawManifest, []⟩ :: granted.map fun _ => ⟨some notesPlugin, []⟩) := by
    change (written notesLaw :: (granted.map fun p => notesEntry p.1 p.2).map written).mapM (fun e =>
      verifyEntryWithRoot namingScheme notesFiles e ["build"] "public") = _
    rw [List.mapM_cons, hlawEntry, hrest]
    rfl
  rw [verifyComposition, hall, ok_bind]

lemma exists_verified {granted : List (String × String)} (h : ∀ p ∈ granted, p.1 ≠ "")
    (hrun : (concludeVerification namingScheme (notesRecipe granted h) "public"
      (⟨some lawManifest, []⟩ :: granted.map fun _ => ⟨some notesPlugin, []⟩)).toOption.map Verification.errors = some []) :
    ∃ verified, verifyComposition namingScheme notesFiles (notesRecipe granted h) ["build"] "public" = .ok ⟨verified, []⟩ := by
  obtain ⟨⟨verified, _⟩, hconclusion, rfl⟩ := ok_of_toOption hrun
  exact ⟨verified, (notesRecipe_verifies granted h).trans hconclusion⟩

def namingSigner : Signer where
  keyId := "key"
  publicKey := "public"
  hashPayload p := p.source ++ "→" ++ p.target ++ ":" ++ p.capability ++ p.prevHash
  signJson p := "signed " ++ p.capability
  verifyJson p signature := signature = "signed " ++ p.capability
  verify_sign _ := decide_eq_true rfl

lemma namingSigner_boots : ∃ k, bootstrapKernel namingSigner = .ok k := by
  have hkernel : (bootstrapKernel namingSigner).toOption.map (fun _ => true) = some true := by decide
  obtain ⟨k, hk, _⟩ := ok_of_toOption hkernel
  exact ⟨k, hk⟩

def registrations (entries : List CompositionEntry) : List Registration :=
  entries.map fun e => if e.bootPhase = 0 then .eager e .empty else .dormant e .empty

lemma registered_registrations (entries : List CompositionEntry) : registered (registrations entries) = entries := by
  induction entries with
  | nil => rfl
  | cons e rest ih =>
    have hentry : (if e.bootPhase = 0 then Registration.eager e .empty else .dormant e .empty).enrolled? = some e := by
      split_ifs <;> rfl
    rw [registrations, List.map_cons, registered, List.filterMap_cons, hentry]
    exact congrArg (e :: ·) ih

/-- The law, and notes with one op: the kernel routes as the table does. -/
theorem graph_routing_notes : ∃ k, bootstrapKernel namingSigner = .ok k ∧ ∀ manifests, RoutesAlike
    (notesEntries [("notes", "add@1")]) (kernelRoutes k manifests (registrations (notesEntries [("notes", "add@1")])))
      (tableRoutes manifests (registrations (notesEntries [("notes", "add@1")]))) := by
  obtain ⟨verified, hverified⟩ := exists_verified (show ∀ p ∈ [("notes", "add@1")], p.1 ≠ "" by decide) (by decide)
  obtain ⟨k, hk⟩ := namingSigner_boots
  have hfirst : firstOfEachId (notesEntries [("notes", "add@1")]) = notesEntries [("notes", "add@1")] := rfl
  have hops : ∀ e ∈ notesEntries [("notes", "add@1")], ∀ op ∈ e.grant.contracts, op = "add@1" := by
    simp [notesEntries, notesLaw, notesEntry]
  refine ⟨k, hk, (graph_routing_iff hverified (reads_notesRecipe _ _) hk fun e => ?_).mpr ⟨fun e he _ => ?_, ?_⟩⟩
  · rw [registered_registrations]
  · rw [registered_registrations, hfirst]
    exact he
  · rw [registered_registrations, hfirst]
    rintro before e after hsplit op hop ⟨hname, _⟩
    rw [hops e (hsplit ▸ List.mem_append_right _ List.mem_cons_self) op hop] at hname
    exact absurd hname (by decide)

/-- Of two entries with one id the kernel does not learn what the second one grants. -/
theorem second_unrouted : ∃ (r : Recipe) (entries : List CompositionEntry) (verified : OrderedMap String Manifest)
    (k : Kernel) (regs : List Registration) (manifests : String → PluginManifest),
      verifyComposition namingScheme notesFiles r ["build"] "public" = .ok ⟨verified, []⟩ ∧
        List.Forall₂ Reads r.composition entries ∧ bootstrapKernel namingSigner = .ok k ∧
          (∀ e, e ∈ registered regs ↔ e ∈ entries) ∧
            ¬ RoutesAlike entries (kernelRoutes k manifests regs) (tableRoutes manifests regs) := by
  let granted := [("notes", "add@1"), ("notes", "list@1")]
  obtain ⟨verified, hverified⟩ := exists_verified (show ∀ p ∈ [("notes", "add@1"), ("notes", "list@1")], p.1 ≠ "" by decide)
    (by decide)
  obtain ⟨k, hk⟩ := namingSigner_boots
  have hregs : ∀ e, e ∈ registered (registrations (notesEntries granted)) ↔ e ∈ notesEntries granted := by
    intro e
    rw [registered_registrations]
  refine ⟨_, notesEntries granted, verified, k, registrations (notesEntries granted), fun _ => depending [], hverified,
    reads_notesRecipe _ _, hk, hregs, fun halike => ?_⟩
  have hfirst := (settled_of_verified hverified (reads_notesRecipe _ _) hk hregs _).first_of_alike halike
  have hmem := hfirst (notesEntry "notes" "list@1") (by simp [notesEntries]) (by simp [notesEntry])
  have hfirsts : firstOfEachId (notesEntries granted) = notesEntries [("notes", "add@1")] := rfl
  rw [registered_registrations, hfirsts] at hmem
  simp [notesEntries, notesLaw, notesEntry] at hmem

end Compositions

end Routing

end VivimOmega.Host

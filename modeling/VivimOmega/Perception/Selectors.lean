import VivimOmega.Library.Collect
import VivimOmega.Library.Lines
import VivimOmega.Observation.Attribution
import VivimOmega.Perception.Places

/-! The selectors of a captured page: each leads back to the one node that it was generated from. -/

namespace VivimOmega.Perception

open Library Library.Json Nlcl Observation

section Texts

def blank : UInt16 := 32

lemma isSpace_blank : isSpace blank = true := by decide

lemma arrow_eq : arrow = [blank, 62, blank] := by decide

lemma natText_units {n : ℕ} {u : UInt16} (h : u ∈ natText n) : 48 ≤ u ∧ u ≤ 57 := by
  obtain ⟨c, hc, hu⟩ := List.mem_flatMap.mp h
  rw [Nat.toList_repr] at hc
  have hdigit := Nat.isDigit_of_mem_toDigits (by decide) (by decide) hc
  rw [Char.isDigit, Bool.and_eq_true, decide_eq_true_eq, decide_eq_true_eq] at hdigit
  obtain ⟨hlow, hhigh⟩ := hdigit
  have hlow : 48 ≤ c.toNat := hlow
  have hhigh : c.toNat ≤ 57 := hhigh
  rw [units, if_pos (by omega), List.mem_singleton] at hu
  subst hu
  have hval : (UInt16.ofNat c.toNat).toNat = c.toNat := by simp; omega
  rw [UInt16.le_iff_toNat_le, UInt16.le_iff_toNat_le, hval]
  exact ⟨hlow, hhigh⟩

lemma natText_injective : Function.Injective natText := ofText_injective.comp Text.repr_injective

/-- The selector of a node by its tag and its place among the siblings of that tag. -/
def positional (tag : JsString) (k : ℕ) : JsString := tag ++ nthOfType ++ natText k ++ closing

lemma positional_injective {tag tag' : JsString} {k k' : ℕ} (h : positional tag k = positional tag' k') :
    tag = tag' ∧ k = k' := by
  have hfree : ∀ k, (40 : UInt16) ∉ 41 :: (natText k).reverse := by
    intro k hmem
    rcases List.mem_cons.mp hmem with heq | hmem
    · exact absurd heq (by decide)
    · exact absurd (natText_units (List.mem_reverse.mp hmem)).1 (by decide)
  have hreverse : ∀ tag k, (positional tag k).reverse =
      (41 :: (natText k).reverse) ++ 40 :: ((ofText ":nth-of-type").reverse ++ tag.reverse) := by
    intro tag k
    have hnth : nthOfType.reverse = 40 :: (ofText ":nth-of-type").reverse := by decide
    have hclosing : closing.reverse = [41] := by decide
    simp only [positional, List.reverse_append, hnth, hclosing, List.append_assoc, List.cons_append, List.nil_append]
  have heq := congrArg List.reverse h
  rw [hreverse, hreverse] at heq
  obtain ⟨hdigits, htags⟩ := line_cancel (hfree k) (hfree k') heq
  refine ⟨List.reverse_injective (List.append_cancel_left htags), natText_injective (List.reverse_injective ?_)⟩
  exact (List.cons.inj hdigits).2

lemma positional_blank {tag : JsString} {k : ℕ} (h : blank ∉ tag) : blank ∉ positional tag k := by
  rw [positional, List.mem_append, List.mem_append, List.mem_append]
  rintro (((hmem | hmem) | hmem) | hmem)
  · exact h hmem
  · exact absurd hmem (by decide)
  · exact absurd (natText_units hmem).1 (by decide)
  · exact absurd hmem (by decide)

lemma positional_head {tag : JsString} {k : ℕ} (h : hash ∉ tag) (rest : JsString) : positional tag k ≠ hash :: rest := by
  intro heq
  cases tag with
  | nil =>
    have hcolon : nthOfType = 58 :: ofText "nth-of-type(" := by decide
    rw [positional, hcolon] at heq
    exact absurd (List.cons.inj heq).1 (by decide)
  | cons u tag =>
    obtain ⟨rfl, -⟩ := List.cons.inj heq
    exact h List.mem_cons_self

lemma chain_injective {a b : List JsString} (hne : a ≠ []) (hne' : b ≠ []) (ha : ∀ s ∈ a, blank ∉ s) (hb : ∀ s ∈ b, blank ∉ s)
    (h : arrow.intercalate a = arrow.intercalate b) : a = b := by
  have hlonger : ∀ x y z : JsString, ∀ rest, blank ∉ x → x ≠ arrow.intercalate (y :: z :: rest) := by
    intro x y z rest hx heq
    apply hx
    rw [heq, List.intercalate_cons_cons, arrow_eq]
    simp
  induction a generalizing b with
  | nil => exact absurd rfl hne
  | cons x a ih =>
    obtain ⟨hx, ha⟩ := List.forall_mem_cons.mp ha
    cases b with
    | nil => exact absurd rfl hne'
    | cons y b =>
      obtain ⟨hy, htail⟩ := List.forall_mem_cons.mp hb
      cases a with
      | nil =>
        rw [List.intercalate_singleton] at h
        cases b with
        | nil => rw [h, List.intercalate_singleton]
        | cons z b => exact absurd h (hlonger x y z b hx)
      | cons w a =>
        cases b with
        | nil =>
          rw [List.intercalate_singleton] at h
          exact absurd h.symm (hlonger y x w a hy)
        | cons z b =>
          rw [List.intercalate_cons_cons, List.intercalate_cons_cons, arrow_eq, List.append_assoc, List.append_assoc] at h
          obtain ⟨rfl, hrest⟩ := line_cancel hx hy h
          rw [ih (List.cons_ne_nil w a) (List.cons_ne_nil z b) ha htail (List.cons.inj (List.cons.inj hrest).2).2]

lemma pathId_injective {a b : List ℕ} (ha : a ≠ []) (hb : b ≠ []) (h : pathId a = pathId b) : a = b := by
  have hfree : ∀ n, dot ∉ natText n := fun n hmem => absurd (natText_units hmem).1 (by decide)
  have hsplit : ∀ path : List ℕ, path ≠ [] → ([dot].intercalate (path.map natText)).splitOn dot = path.map natText := by
    intro path hne
    apply List.splitOn_intercalate
    · intro s hs
      obtain ⟨n, -, rfl⟩ := List.mem_map.mp hs
      exact hfree n
    · simpa using hne
  have hjoined := congrArg (List.splitOn dot) (List.append_cancel_left h)
  rw [hsplit a ha, hsplit b hb] at hjoined
  exact List.map_injective_iff.mpr natText_injective hjoined

end Texts

section Trees

open DomNode

/-- Ids that select at most one node, and names that no selector is cut in. -/
structure Captured (root : DomNode) : Prop where
  distinct : (root.places.filterMap fun p => p.2.id.filter (· ≠ [])).Nodup
  tags : ∀ p ∈ root.places, (∀ u ∈ p.2.tag, isSpace u = false) ∧ hash ∉ p.2.tag
  ids : ∀ p ∈ root.places, ∀ id ∈ p.2.id, ∀ u ∈ id, isSpace u = false

/-- What a tree keeps of this below each of its nodes. -/
structure Selectable (n : DomNode) : Prop where
  distinct : ∀ a b m m', n.at? a = some m → n.at? b = some m' → m.idHint = m'.idHint → m.idHint ≠ none → a = b
  tags : ∀ a m, n.at? a = some m → blank ∉ m.tag ∧ hash ∉ m.tag
  ids : ∀ a m, n.at? a = some m → ∀ hint ∈ m.idHint, blank ∉ hint

variable {root n m child other : DomNode} {i j k l : ℕ} {a b : List ℕ}

lemma idHint_eq {hint : JsString} (h : n.idHint = some hint) : ∃ id, n.id.filter (· ≠ []) = some id ∧ hint = hash :: id := by
  obtain ⟨id, hid, rfl⟩ := Option.map_eq_some_iff.mp h
  exact ⟨id, hid, rfl⟩

/-- What is found at two members of a list is found twice. -/
lemma eq_of_nodup_filterMap {α β : Type} {f : α → Option β} {l : List α} (h : (l.filterMap f).Nodup) {p q : α} {x : β}
    (hp : p ∈ l) (hq : q ∈ l) (hpx : f p = some x) (hqx : f q = some x) : p = q := by
  have hpairwise := List.pairwise_filterMap.mp h
  have hsymm : Std.Symm fun p q => ∀ x, f p = some x → ∀ y, f q = some y → x ≠ y :=
    ⟨fun p q hpq x hx y hy => (hpq y hy x hx).symm⟩
  by_contra hne
  exact hpairwise.forall hp hq hne x hpx x hqx rfl

lemma no_blank {s : JsString} (h : ∀ u ∈ s, isSpace u = false) : blank ∉ s := fun hmem =>
  absurd (h blank hmem) (by decide)

lemma Captured.selectable (h : Captured root) : Selectable root where
  distinct a b m m' ha hb heq hne := by
    obtain ⟨hint, hhint⟩ := Option.ne_none_iff_exists'.mp hne
    obtain ⟨id, hid, rfl⟩ := idHint_eq hhint
    obtain ⟨id', hid', heq'⟩ := idHint_eq (heq.symm.trans hhint)
    obtain rfl := (List.cons.inj heq').2
    have hplace := eq_of_nodup_filterMap h.distinct ((mem_places root a m).mpr ha) ((mem_places root b m').mpr hb) hid hid'
    exact (Prod.mk.inj hplace).1
  tags a m ha := by
    obtain ⟨hspace, hhash⟩ := h.tags (a, m) ((mem_places root a m).mpr ha)
    exact ⟨no_blank hspace, hhash⟩
  ids a m ha hint hhint := by
    obtain ⟨id, hid, rfl⟩ := idHint_eq hhint
    have hspace := h.ids (a, m) ((mem_places root a m).mpr ha) id (Option.mem_filter_iff.mp hid).1
    intro hmem
    rcases List.mem_cons.mp hmem with heq | hmem
    · exact absurd heq (by decide)
    · exact no_blank hspace hmem

lemma at?_child (hi : n.children[i]? = some child) (a : List ℕ) : n.at? (i :: a) = child.at? a := by
  rw [at?, hi, Option.bind_some]

lemma Selectable.below (h : Selectable n) (hi : n.children[i]? = some child) : Selectable child where
  distinct a b m m' ha hb heq hne := by
    rw [← at?_child hi] at ha hb
    exact (List.cons.inj (h.distinct _ _ m m' ha hb heq hne)).2
  tags a m ha := h.tags _ m ((at?_child hi a).trans ha)
  ids a m ha := h.ids _ m ((at?_child hi a).trans ha)

lemma ordinal_lt (hi : n.children[i]? = some child) (hlt : i < j) : n.ordinal i child.tag < n.ordinal j child.tag := by
  obtain ⟨hlength, hget⟩ := List.getElem?_eq_some_iff.mp hi
  have hstep : n.children.take (i + 1) = n.children.take i ++ [child] := by
    rw [List.take_succ_eq_append_getElem hlength, hget]
  have hsub : (n.children.take (i + 1)).Sublist (n.children.take j) := (List.take_prefix_take_left hlt).sublist
  have hcount := (hsub.map DomNode.tag).count_le child.tag
  rw [hstep, List.map_append, List.count_append, List.map_singleton, List.count_singleton_self] at hcount
  rw [ordinal, ordinal]
  omega

lemma segmentFor_none (h : n.idHint = none) (k : ℕ) : segmentFor n k = positional n.tag k := by
  rw [segmentFor, h]
  rfl

lemma segmentFor_some {hint : JsString} (h : n.idHint = some hint) (k : ℕ) : segmentFor n k = hint := by
  rw [segmentFor, h]
  rfl

lemma Selectable.segment_blank (h : Selectable n) (k : ℕ) : blank ∉ segmentFor n k := by
  cases hhint : n.idHint with
  | none =>
    rw [segmentFor_none hhint]
    exact positional_blank (h.tags [] n rfl).1
  | some hint =>
    rw [segmentFor_some hhint]
    exact h.ids [] n rfl hint hhint

/-- No two children of a node are selected by the same segment. -/
lemma Selectable.siblings (h : Selectable n) (hi : n.children[i]? = some child) (hj : n.children[j]? = some other)
    (heq : segmentFor child (n.ordinal i child.tag) = segmentFor other (n.ordinal j other.tag)) : i = j := by
  have hplace : ∀ {i : ℕ} {child : DomNode}, n.children[i]? = some child → n.at? [i] = some child :=
    fun hi => (at?_child hi []).trans rfl
  cases hhint : child.idHint with
  | some hint =>
    obtain ⟨id, -, rfl⟩ := idHint_eq hhint
    rw [segmentFor_some hhint] at heq
    cases hhint' : other.idHint with
    | some hint' =>
      rw [segmentFor_some hhint'] at heq
      subst heq
      have hsame := h.distinct [i] [j] child other (hplace hi) (hplace hj) (hhint.trans hhint'.symm) (by simp [hhint])
      exact (List.cons.inj hsame).1
    | none =>
      rw [segmentFor_none hhint'] at heq
      exact absurd heq.symm (positional_head (h.tags [j] other (hplace hj)).2 id)
  | none =>
    rw [segmentFor_none hhint] at heq
    cases hhint' : other.idHint with
    | some hint' =>
      obtain ⟨id, -, rfl⟩ := idHint_eq hhint'
      rw [segmentFor_some hhint'] at heq
      exact absurd heq (positional_head (h.tags [i] child (hplace hi)).2 id)
    | none =>
      rw [segmentFor_none hhint'] at heq
      obtain ⟨htag, hordinal⟩ := positional_injective heq
      rcases Nat.lt_trichotomy i j with hlt | rfl | hlt
      · have hless := ordinal_lt hi hlt
        rw [htag] at hless hordinal
        omega
      · rfl
      · have hless := ordinal_lt hj hlt
        rw [htag] at hordinal
        omega

lemma trail_ne_nil (n : DomNode) (k : ℕ) (a : List ℕ) : n.trail k a ≠ [] := by
  cases a <;> simp [trail]

lemma trail_cons (hi : n.children[i]? = some child) : n.trail k (i :: a) =
    segmentFor n k :: child.trail (n.ordinal i child.tag) a := by
  rw [trail, hi, Option.elim_some]

lemma trail_head (n : DomNode) (k : ℕ) (a : List ℕ) : (n.trail k a).head? = some (segmentFor n k) := by
  cases a <;> rfl

lemma Selectable.trail_blank (h : Selectable n) (ha : n.at? a = some m) (k : ℕ) : ∀ s ∈ n.trail k a, blank ∉ s := by
  induction a generalizing n k with
  | nil =>
    intro s hs
    rw [List.mem_singleton.mp hs]
    exact h.segment_blank k
  | cons i a ih =>
    obtain ⟨child, hi, hm⟩ := Option.bind_eq_some_iff.mp ha
    rw [trail_cons hi, List.forall_mem_cons]
    exact ⟨h.segment_blank k, ih (h.below hi) hm _⟩

/-- A chain of segments leads to one place at most. -/
lemma Selectable.trail_injective (h : Selectable n) (ha : n.at? a = some m) (hb : n.at? b = some other)
    (heq : n.trail k a = n.trail k b) : a = b := by
  induction a generalizing n b k with
  | nil =>
    cases b with
    | nil => rfl
    | cons j b =>
      obtain ⟨child, hj, -⟩ := Option.bind_eq_some_iff.mp hb
      rw [trail_cons hj] at heq
      exact absurd (List.cons.inj heq).2.symm (trail_ne_nil child _ b)
  | cons i a ih =>
    obtain ⟨child, hi, hm⟩ := Option.bind_eq_some_iff.mp ha
    rw [trail_cons hi] at heq
    cases b with
    | nil => exact absurd (List.cons.inj heq).2 (trail_ne_nil child _ a)
    | cons j b =>
      obtain ⟨child', hj, hm'⟩ := Option.bind_eq_some_iff.mp hb
      rw [trail_cons hj] at heq
      obtain ⟨-, htail⟩ := List.cons.inj heq
      have hhead := congrArg List.head? htail
      rw [trail_head, trail_head] at hhead
      obtain rfl := h.siblings hi hj (Option.some.inj hhead)
      rw [hi] at hj
      cases hj
      rw [ih (h.below hi) hm hm' htail]

/-- What a node is selected by, at an address below the root. -/
def selectorAt (root : DomNode) (p : List ℕ × DomNode) : JsString :=
  p.2.idHint.getD (arrow.intercalate (root.trail 1 p.1))

lemma Selectable.chain_ne_hint (h : Selectable root) (ha : root.at? a = some n) (hb : root.at? b = some m) (hnone : m.idHint = none)
    {hint : JsString} (hhint : n.idHint = some hint) : hint ≠ arrow.intercalate (root.trail 1 b) := by
  intro heq
  cases b with
  | nil =>
    obtain ⟨id, -, rfl⟩ := idHint_eq hhint
    obtain rfl : root = m := Option.some.inj hb
    rw [trail, List.intercalate_singleton, segmentFor_none hnone] at heq
    exact positional_head (h.tags [] root rfl).2 id heq.symm
  | cons i b =>
    obtain ⟨child, hi, -⟩ := Option.bind_eq_some_iff.mp hb
    apply h.ids a n ha hint hhint
    obtain ⟨s, rest, hrest⟩ := List.exists_cons_of_ne_nil (trail_ne_nil child (root.ordinal i child.tag) b)
    rw [heq, trail_cons hi, hrest, List.intercalate_cons_cons, arrow_eq]
    simp

lemma Selectable.selector_injective (h : Selectable root) (ha : root.at? a = some n) (hb : root.at? b = some m)
    (heq : selectorAt root (a, n) = selectorAt root (b, m)) : a = b := by
  rw [selectorAt, selectorAt] at heq
  cases hn : n.idHint with
  | none =>
    cases hm : m.idHint with
    | none =>
      rw [hn, hm, Option.getD_none, Option.getD_none] at heq
      exact h.trail_injective ha hb (chain_injective (trail_ne_nil root 1 a) (trail_ne_nil root 1 b) (h.trail_blank ha 1) (h.trail_blank hb 1) heq)
    | some hint =>
      rw [hn, hm, Option.getD_none, Option.getD_some] at heq
      exact absurd heq.symm (h.chain_ne_hint hb ha hn hm)
  | some hint =>
    cases hm : m.idHint with
    | none =>
      rw [hn, hm, Option.getD_none, Option.getD_some] at heq
      exact absurd heq (h.chain_ne_hint ha hb hm hn)
    | some hint' =>
      rw [hn, hm, Option.getD_some, Option.getD_some] at heq
      exact h.distinct a b n m ha hb (by rw [hn, hm, heq]) (by simp [hn])

end Trees

section Graphs

open DomNode

variable (evidence : List EvidenceRef) (page : PageCapture)

/-- The node of the graph that names an element. -/
structure Names (root : DomNode) (p : List ℕ × DomNode) (g : GraphNode) : Prop where
  kind : classifyKind p.2 = some g.kind
  id : g.id = pathId (0 :: p.1)
  label : g.label = labelFor p.2
  hint : g.selectorHint = selectorAt root p

/-- Every selector of a graph leads back to its node, and every endpoint of an edge is such a node. -/
structure LeadsBack : Prop where
  emitted : ∃ found : List (List ℕ × DomNode), found.Pairwise (fun p q => p.1 < q.1) ∧
    (∀ address n, (address, n) ∈ found ↔ page.root.at? address = some n ∧ (classifyKind n).isSome) ∧
    List.Forall₂ (Names page.root) found (buildGraph evidence page).nodes
  ids : ((buildGraph evidence page).nodes.map GraphNode.id).Nodup
  hints : ((buildGraph evidence page).nodes.map GraphNode.selectorHint).Nodup
  back : ∀ g ∈ (buildGraph evidence page).nodes, graphResolver (buildGraph evidence page).nodes g.selectorHint = some g.id
  endpoints : ∀ events spans source,
    ∀ e ∈ (deriveEdges events spans (graphResolver (buildGraph evidence page).nodes) source).edges,
      (∃ g ∈ (buildGraph evidence page).nodes, g.id = e.source ∧ ∃ ev ∈ events, g.selectorHint = ev.targetSelector) ∧
      (∃ g ∈ (buildGraph evidence page).nodes, g.id = e.target ∧ ∃ ev ∈ events, g.selectorHint = ev.targetSelector)

lemma forall₂_filterMap {α β : Type} (f : α → Option β) (l : List α) :
    List.Forall₂ (fun a b => f a = some b) (l.filter fun a => (f a).isSome) (l.filterMap f) := by
  induction l with
  | nil => exact .nil
  | cons a l ih =>
    cases h : f a with
    | none => simpa [h] using ih
    | some b => simpa [h] using ih

lemma graphResolver_eq {nodes : List GraphNode} (h : (nodes.map GraphNode.selectorHint).Nodup) {g : GraphNode} (hg : g ∈ nodes) :
    graphResolver nodes g.selectorHint = some g.id := by
  rw [graphResolver]
  cases hfind : nodes.find? fun n => n.selectorHint = g.selectorHint with
  | none => exact absurd (List.find?_eq_none.mp hfind g hg) (by simp)
  | some n =>
    have hsame : n.selectorHint = g.selectorHint := by simpa using List.find?_some hfind
    rw [List.inj_on_of_nodup_map h (List.mem_of_find?_eq_some hfind) hg hsame]
    rfl

lemma of_graphResolver {nodes : List GraphNode} {selector id : JsString} (h : graphResolver nodes selector = some id) :
    ∃ g ∈ nodes, g.id = id ∧ g.selectorHint = selector := by
  obtain ⟨g, hfind, hid⟩ := Option.map_eq_some_iff.mp h
  exact ⟨g, List.mem_of_find?_eq_some hfind, hid, by simpa using List.find?_some hfind⟩

lemma edge_endpoints {nodes : List GraphNode} {events : List TraceEvent} {spans : List Span} {source : Source} {e : CausalEdge}
    (he : e ∈ (deriveEdges events spans (graphResolver nodes) source).edges) :
    (∃ g ∈ nodes, g.id = e.source ∧ ∃ ev ∈ events, g.selectorHint = ev.targetSelector) ∧
    (∃ g ∈ nodes, g.id = e.target ∧ ∃ ev ∈ events, g.selectorHint = ev.targetSelector) := by
  obtain ⟨cited, skipped, unattributed, haccounted⟩ : ∃ cited skipped unattributed,
      Accounted events spans (graphResolver nodes) source events.length
        (deriveEdges events spans (graphResolver nodes) source) cited skipped unattributed := derived_accounted _ le_rfl
  obtain ⟨line, -, ev, hev, -, group, -, hcites⟩ := forall₂_mem haccounted.edges.flip he
  obtain ⟨g, hg, hid, hhint⟩ := of_graphResolver hcites.cause
  obtain ⟨g', hg', hid', hhint'⟩ := of_graphResolver hcites.target
  exact ⟨⟨g, hg, hid, group.cause, List.mem_of_getElem? hcites.since.cause, hhint⟩,
    ⟨g', hg', hid', ev, List.mem_of_getElem? hev, hhint'⟩⟩

lemma emitAt_root {root : DomNode} {p : List ℕ × DomNode} {g : GraphNode}
    (h : emitAt evidence [0] [] (root.trail 1 p.1) p = some g) : Names root p g := by
  obtain ⟨kind, hkind, rfl⟩ := Option.map_eq_some_iff.mp h
  exact ⟨hkind, rfl, rfl, rfl⟩

theorem selectors_lead_back {page : PageCapture} (h : Captured page.root) : LeadsBack evidence page := by
  have hs := h.selectable
  have hnodes : (buildGraph evidence page).nodes =
      page.root.places.filterMap fun p => emitAt evidence [0] [] (page.root.trail 1 p.1) p := walkDom_eq evidence page.root
  have hplaces := sorted_places page.root
  have hhints : ((buildGraph evidence page).nodes.map GraphNode.selectorHint).Nodup := by
    rw [hnodes, List.Nodup, List.pairwise_map, List.pairwise_filterMap]
    refine hplaces.imp_of_mem fun {p q} hp hq hlt g hg g' hg' heq => ?_
    rw [(emitAt_root evidence hg).hint, (emitAt_root evidence hg').hint] at heq
    exact hlt.ne (hs.selector_injective ((mem_places _ _ _).mp hp) ((mem_places _ _ _).mp hq) heq)
  refine ⟨⟨page.root.places.filter fun p => (classifyKind p.2).isSome, hplaces.filter _, fun address n => ?_, ?_⟩, ?_, hhints,
    fun g hg => graphResolver_eq hhints hg, fun events spans source e he => edge_endpoints he⟩
  · rw [List.mem_filter, mem_places]
  · rw [hnodes]
    have hemitted := forall₂_filterMap (fun p => emitAt evidence [0] [] (page.root.trail 1 p.1) p) page.root.places
    simp only [emitAt, Option.isSome_map] at hemitted
    exact hemitted.imp fun p g hg => emitAt_root evidence hg
  · rw [hnodes, List.Nodup, List.pairwise_map, List.pairwise_filterMap]
    refine hplaces.imp fun {p q} hlt g hg g' hg' heq => ?_
    rw [(emitAt_root evidence hg).id, (emitAt_root evidence hg').id] at heq
    have hpath := pathId_injective (List.cons_ne_nil 0 _) (List.cons_ne_nil 0 _) heq
    exact hlt.ne (List.cons.inj hpath).2

def element (tag : String) (id : Option String) (children : List DomNode) : DomNode :=
  ⟨ofText tag, id.map ofText, none, none, none, none, children⟩

/-- A named list of two buttons, and a third button beside it. -/
def menuPage : PageCapture :=
  ⟨ofText "menu", 0, element "div" none
    [element "ul" (some "menu") [element "button" none [], element "button" none []], element "button" (some "close") []]⟩

/-- The tags and the ids of the page. -/
def menuNames : List String := ["div", "ul", "button", "menu", "close"]

lemma menuNames_plain {name : String} (h : name ∈ menuNames) :
    (∀ u ∈ ofText name, isSpace u = false) ∧ hash ∉ ofText name := by
  have hspaces : menuNames.all (fun name => (ofText name).all fun u => !isSpace u) = true := by decide
  have hhashes : ∀ name ∈ menuNames, hash ∉ ofText name := by decide
  have hname := List.all_eq_true.mp hspaces name h
  exact ⟨fun u hu => by simpa using List.all_eq_true.mp hname u hu, hhashes name h⟩

lemma menuPage_named : ∀ p ∈ menuPage.root.places, (∃ name ∈ menuNames, p.2.tag = ofText name) ∧
    ∀ id ∈ p.2.id, ∃ name ∈ menuNames, id = ofText name := by
  simp [menuPage, element, places, placesFrom, menuNames]

lemma menuPage_captured : Captured menuPage.root where
  distinct := by decide
  tags p hp := by
    obtain ⟨⟨name, hname, htag⟩, -⟩ := menuPage_named p hp
    rw [htag]
    exact menuNames_plain hname
  ids p hp id hid := by
    obtain ⟨-, hids⟩ := menuPage_named p hp
    obtain ⟨name, hname, rfl⟩ := hids id hid
    exact (menuNames_plain hname).1

theorem menuPage_leads_back : LeadsBack [] menuPage := selectors_lead_back [] menuPage_captured

end Graphs

end VivimOmega.Perception

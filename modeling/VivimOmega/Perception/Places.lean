import VivimOmega.Perception.Graph

/-! The places of a captured tree, and what the walk emits at each of them. -/

namespace VivimOmega.Perception

open Library Library.Json Nlcl

namespace DomNode

/-- The node that child indices lead to. -/
def at? : DomNode → List ℕ → Option DomNode
  | n, [] => some n
  | n, i :: address => n.children[i]?.bind (·.at? address)

mutual

/-- The nodes with their addresses, in document order. -/
def places : DomNode → List (List ℕ × DomNode)
  | ⟨tag, id, role, ariaLabel, text, placeholder, children⟩ =>
    ([], ⟨tag, id, role, ariaLabel, text, placeholder, children⟩) :: placesFrom 0 children

def placesFrom (i : ℕ) : List DomNode → List (List ℕ × DomNode)
  | [] => []
  | child :: rest => (child.places.map fun p => (i :: p.1, p.2)) ++ placesFrom (i + 1) rest

end

variable {n m child : DomNode} {i k : ℕ} {address : List ℕ}

lemma places_eq (n : DomNode) : n.places = ([], n) :: placesFrom 0 n.children := by
  cases n
  rw [places]

lemma sizeOf_child (h : child ∈ n.children) : sizeOf child < sizeOf n := by
  have hlist := List.sizeOf_lt_of_mem h
  cases n
  simp only [DomNode.mk.sizeOf_spec]
  dsimp only at hlist
  omega

/-- From the children of a node to the node. -/
lemma below_child {P : DomNode → Prop} (step : ∀ n : DomNode, (∀ child ∈ n.children, P child) → P n) (n : DomNode) :
    P n := by
  induction h : sizeOf n using Nat.strongRecOn generalizing n with
  | _ size ih =>
    subst h
    exact step n fun child hchild => ih _ (sizeOf_child hchild) child rfl

lemma mem_placesFrom {children : List DomNode} {p : List ℕ × DomNode} : p ∈ placesFrom k children ↔
    ∃ i child q, children[i]? = some child ∧ q ∈ child.places ∧ p = ((k + i) :: q.1, q.2) := by
  induction children generalizing k with
  | nil => simp [placesFrom]
  | cons child rest ih =>
    rw [placesFrom, List.mem_append, List.mem_map, ih]
    constructor
    · rintro (⟨q, hq, rfl⟩ | ⟨i, c, q, hi, hq, rfl⟩)
      · exact ⟨0, child, q, rfl, hq, rfl⟩
      · exact ⟨i + 1, c, q, hi, hq, by rw [Nat.add_right_comm, Nat.add_assoc]⟩
    · rintro ⟨i, c, q, hi, hq, rfl⟩
      cases i with
      | zero =>
        obtain rfl : child = c := by simpa using hi
        exact .inl ⟨q, hq, rfl⟩
      | succ i => exact .inr ⟨i, c, q, by simpa using hi, hq, by rw [Nat.add_right_comm, Nat.add_assoc]⟩

/-- The places of a tree are where addresses lead to. -/
lemma mem_places (n : DomNode) : ∀ address m, (address, m) ∈ n.places ↔ n.at? address = some m := by
  induction n using below_child with
  | step n ih =>
    intro address m
    rw [places_eq, List.mem_cons, mem_placesFrom]
    cases address with
    | nil =>
      simp [at?, eq_comm]
    | cons i address =>
      simp only [Prod.mk.injEq, reduceCtorEq, false_and, false_or, at?, Option.bind_eq_some_iff, Nat.zero_add, List.cons.injEq]
      constructor
      · rintro ⟨i, child, ⟨_, _⟩, hi, hq, ⟨rfl, rfl⟩, rfl⟩
        exact ⟨child, hi, (ih child (List.mem_of_getElem? hi) _ _).mp hq⟩
      · rintro ⟨child, hi, hat⟩
        exact ⟨i, child, (address, m), hi, (ih child (List.mem_of_getElem? hi) _ _).mpr hat, ⟨rfl, rfl⟩, rfl⟩

lemma sorted_placesFrom {children : List DomNode}
    (h : ∀ child ∈ children, child.places.Pairwise fun p q => p.1 < q.1) :
    (placesFrom k children).Pairwise fun p q => p.1 < q.1 := by
  induction children generalizing k with
  | nil => exact List.Pairwise.nil
  | cons child rest ih =>
    obtain ⟨hchild, hrest⟩ := List.forall_mem_cons.mp h
    rw [placesFrom, List.pairwise_append]
    refine ⟨?_, ih hrest, fun p hp q hq => ?_⟩
    · rw [List.pairwise_map]
      exact hchild.imp fun hlt => List.cons_lt_cons_iff.mpr (.inr ⟨rfl, hlt⟩)
    · obtain ⟨p, -, rfl⟩ := List.mem_map.mp hp
      obtain ⟨i, c, q, -, -, rfl⟩ := mem_placesFrom.mp hq
      exact List.cons_lt_cons_iff.mpr (.inl (by omega))

/-- A node stands before what is below it, and that before what is below its later siblings. -/
lemma sorted_places (n : DomNode) : n.places.Pairwise fun p q => p.1 < q.1 := by
  induction n using below_child with
  | step n ih =>
    rw [places_eq, List.pairwise_cons]
    refine ⟨fun q hq => ?_, sorted_placesFrom ih⟩
    obtain ⟨i, c, q, -, -, rfl⟩ := mem_placesFrom.mp hq
    exact List.nil_lt_cons _ _

/-- The position of a child among its siblings of the same tag. -/
def ordinal (n : DomNode) (i : ℕ) (tag : JsString) : ℕ := ((n.children.take i).map DomNode.tag).count tag + 1

/-- The segments from a node down to what is at an address below it. -/
def trail : DomNode → ℕ → List ℕ → List JsString
  | n, k, [] => [segmentFor n k]
  | n, k, i :: address =>
    segmentFor n k :: (n.children[i]?.elim [] fun child => child.trail (n.ordinal i child.tag) address)

end DomNode

open DomNode

section Emitted

variable (evidence : List EvidenceRef)

/-- What the walk emits at a place. -/
def emitAt (path : List ℕ) (chain trail : List JsString) (p : List ℕ × DomNode) : Option GraphNode :=
  (classifyKind p.2).map fun kind =>
    { id := pathId (path ++ p.1)
      kind
      label := labelFor p.2
      selectorHint := p.2.idHint.getD (arrow.intercalate (chain ++ trail))
      evidence }

lemma visit_eq (n : DomNode) : ∀ k path chain, visit evidence k path chain n =
    n.places.filterMap fun p => emitAt evidence path chain (n.trail k p.1) p := by
  induction n using below_child with
  | step n ih =>
    intro k path chain
    have hall : ∀ rest before, n.children = before ++ rest →
        visitAll evidence (before.map DomNode.tag) path (chain ++ [segmentFor n k]) rest =
          (placesFrom before.length rest).filterMap fun p => emitAt evidence path chain (n.trail k p.1) p := by
      intro rest
      induction rest with
      | nil =>
        intro before _
        rfl
      | cons child rest ihrest =>
        intro before hsplit
        have hchild : n.children[before.length]? = some child := by simp [hsplit]
        have hbefore : n.children.take before.length = before := by rw [hsplit, List.take_left]
        have hnext := ihrest (before ++ [child]) (by rw [hsplit, List.append_assoc]; rfl)
        rw [List.map_append, List.map_singleton, List.length_append, List.length_singleton] at hnext
        rw [visitAll, placesFrom, List.filterMap_append, hnext, List.filterMap_map, List.length_map,
          ih child (List.mem_of_getElem? hchild)]
        refine congrArg (· ++ _) (List.filterMap_congr fun p _ => ?_)
        rw [Function.comp_apply, emitAt, emitAt, trail, hchild, Option.elim_some, ordinal, hbefore]
        simp only [List.append_assoc, List.singleton_append]
    have hroot := hall n.children [] rfl
    rw [places_eq, List.filterMap_cons]
    have hemit : emitAt evidence path chain (n.trail k []) ([], n) = emit evidence n (segmentFor n k) path chain := by
      rw [emitAt, emit, List.append_nil, trail]
    dsimp only
    rw [hemit]
    rw [List.map_nil, List.length_nil] at hroot
    rw [← hroot]
    cases n
    rw [visit]
    cases emit evidence _ _ path chain <;> rfl

lemma walkDom_eq (root : DomNode) : walkDom evidence root =
    root.places.filterMap fun p => emitAt evidence [0] [] (root.trail 1 p.1) p := visit_eq evidence root 1 [0] []

end Emitted

end VivimOmega.Perception

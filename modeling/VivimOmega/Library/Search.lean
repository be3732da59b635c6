import Mathlib

/-! Breadth-first search with a set of what was seen, and the nodes that it comes to. -/

namespace VivimOmega.Library

section Search

variable {α : Type} [DecidableEq α]

/-- What is seen when the queue runs out within so many steps. -/
def search (next : α → List α) : ℕ → List α → List α → Option (List α)
  | _, seen, [] => some seen
  | 0, _, _ :: _ => none
  | fuel + 1, seen, x :: queue =>
    if x ∈ seen then search next fuel seen queue else search next fuel (x :: seen) (queue ++ next x)

/-- The way along neighbours. -/
def Leads (next : α → List α) : α → α → Prop := Relation.ReflTransGen fun a b => b ∈ next a

variable {next : α → List α} {fuel : ℕ} {seen queue found : List α} {a x : α}

lemma search_seen (h : search next fuel seen queue = some found) : ∀ x ∈ seen, x ∈ found := by
  induction fuel, seen, queue using search.induct next with
  | case1 fuel seen =>
    rw [search] at h
    cases h
    exact fun _ hx => hx
  | case2 => cases h
  | case3 fuel seen x queue hx ih =>
    rw [search, if_pos hx] at h
    exact ih h
  | case4 fuel seen x queue hx ih =>
    rw [search, if_neg hx] at h
    exact fun y hy => ih h y (List.mem_cons_of_mem x hy)

lemma search_queue (h : search next fuel seen queue = some found) : ∀ x ∈ queue, x ∈ found := by
  induction fuel, seen, queue using search.induct next with
  | case1 => simp
  | case2 => cases h
  | case3 fuel seen x queue hx ih =>
    rw [search, if_pos hx] at h
    exact List.forall_mem_cons.mpr ⟨search_seen h x hx, ih h⟩
  | case4 fuel seen x queue hx ih =>
    rw [search, if_neg hx] at h
    refine List.forall_mem_cons.mpr ⟨search_seen h x List.mem_cons_self, fun y hy => ?_⟩
    exact ih h y (List.mem_append_left _ hy)

lemma search_nodup (hseen : seen.Nodup) (h : search next fuel seen queue = some found) : found.Nodup := by
  induction fuel, seen, queue using search.induct next with
  | case1 fuel seen =>
    rw [search] at h
    cases h
    exact hseen
  | case2 => cases h
  | case3 fuel seen x queue hx ih =>
    rw [search, if_pos hx] at h
    exact ih hseen h
  | case4 fuel seen x queue hx ih =>
    rw [search, if_neg hx] at h
    exact ih (List.nodup_cons.mpr ⟨hx, hseen⟩) h

/-- What is found was seen before or lies on a way from the queue. -/
lemma search_sound (h : search next fuel seen queue = some found) :
    ∀ x ∈ found, x ∈ seen ∨ ∃ q ∈ queue, Leads next q x := by
  induction fuel, seen, queue using search.induct next with
  | case1 fuel seen =>
    rw [search] at h
    cases h
    exact fun _ hx => Or.inl hx
  | case2 => cases h
  | case3 fuel seen x queue hx ih =>
    rw [search, if_pos hx] at h
    intro y hy
    obtain hold | ⟨q, hq, hway⟩ := ih h y hy
    · exact Or.inl hold
    · exact Or.inr ⟨q, List.mem_cons_of_mem x hq, hway⟩
  | case4 fuel seen x queue hx ih =>
    rw [search, if_neg hx] at h
    intro y hy
    obtain hold | ⟨q, hq, hway⟩ := ih h y hy
    · obtain rfl | hold := List.mem_cons.mp hold
      · exact Or.inr ⟨y, List.mem_cons_self, .refl⟩
      · exact Or.inl hold
    · obtain hq | hq := List.mem_append.mp hq
      · exact Or.inr ⟨q, List.mem_cons_of_mem x hq, hway⟩
      · exact Or.inr ⟨x, List.mem_cons_self, hway.head hq⟩

/-- No neighbour of what is found is missed, where none of what was seen before is. -/
lemma search_closed (hseen : ∀ x ∈ seen, ∀ y ∈ next x, y ∈ seen ∨ y ∈ queue)
    (h : search next fuel seen queue = some found) : ∀ x ∈ found, ∀ y ∈ next x, y ∈ found := by
  induction fuel, seen, queue using search.induct next with
  | case1 fuel seen =>
    rw [search] at h
    cases h
    exact fun x hx y hy => (hseen x hx y hy).resolve_right List.not_mem_nil
  | case2 => cases h
  | case3 fuel seen x queue hx ih =>
    rw [search, if_pos hx] at h
    refine ih (fun z hz y hy => ?_) h
    obtain hold | hq := hseen z hz y hy
    · exact Or.inl hold
    · obtain rfl | hq := List.mem_cons.mp hq
      · exact Or.inl hx
      · exact Or.inr hq
  | case4 fuel seen x queue hx ih =>
    rw [search, if_neg hx] at h
    refine ih (fun z hz y hy => ?_) h
    obtain rfl | hz := List.mem_cons.mp hz
    · exact Or.inr (List.mem_append_right _ hy)
    · obtain hold | hq := hseen z hz y hy
      · exact Or.inl (List.mem_cons_of_mem x hold)
      · obtain rfl | hq := List.mem_cons.mp hq
        · exact Or.inl List.mem_cons_self
        · exact Or.inr (List.mem_append_left _ hq)

/-- From one node, the search finds what ways lead to. -/
theorem mem_search (h : search next fuel [a] (next a) = some found) : x ∈ found ↔ Leads next a x := by
  constructor
  · intro hx
    obtain hself | ⟨q, hq, hway⟩ := search_sound h x hx
    · obtain rfl := List.mem_singleton.mp hself
      exact .refl
    · exact hway.head hq
  · intro hway
    have hclosed := search_closed (fun z hz y hy => by
      obtain rfl := List.mem_singleton.mp hz
      exact Or.inr hy) h
    induction hway with
    | refl => exact search_seen h a (List.mem_singleton_self a)
    | tail _ hstep ih => exact hclosed _ ih _ hstep

/-- The neighbours that the nodes not yet seen can still bring into the queue. -/
def unseenDegree (next : α → List α) (nodes seen : List α) : ℕ :=
  ((nodes.filter fun x => x ∉ seen).map fun x => (next x).length).sum

lemma unseenDegree_cons {nodes : List α} (hnodes : nodes.Nodup) (hmem : x ∈ nodes) (hx : x ∉ seen) :
    unseenDegree next nodes seen = (next x).length + unseenDegree next nodes (x :: seen) := by
  induction nodes with
  | nil => cases hmem
  | cons y rest ih =>
    obtain ⟨hy, hrest⟩ := List.nodup_cons.mp hnodes
    obtain rfl | hmem := List.mem_cons.mp hmem
    -- the head leaves the sum, and the rest does not know it
    · have hsame : (rest.filter fun z => z ∉ x :: seen) = rest.filter fun z => z ∉ seen := by
        apply List.filter_congr
        intro z hz
        have hne : z ≠ x := fun h => hy (h ▸ hz)
        simp [hne]
      rw [unseenDegree, unseenDegree, List.filter_cons_of_pos (by simpa using hx),
        List.filter_cons_of_neg (by simp), hsame, List.map_cons, List.sum_cons]
    · have hne : y ≠ x := fun h => hy (h ▸ hmem)
      have hstep := ih hrest hmem
      unfold unseenDegree at hstep ⊢
      by_cases hys : y ∈ seen
      · simpa [hys] using hstep
      · simp only [List.filter_cons, List.mem_cons, hne, hys, or_self, not_false_eq_true, decide_true, if_true,
          List.map_cons, List.sum_cons] at hstep ⊢
        omega

/-- A queue of nodes whose neighbours are nodes runs out. -/
theorem search_total {nodes : List α} (hnodes : nodes.Nodup) (hnext : ∀ x ∈ nodes, ∀ y ∈ next x, y ∈ nodes)
    (hqueue : ∀ x ∈ queue, x ∈ nodes) (hfuel : queue.length + unseenDegree next nodes seen ≤ fuel) :
    ∃ found, search next fuel seen queue = some found := by
  induction fuel, seen, queue using search.induct next with
  | case1 fuel seen => exact ⟨seen, by rw [search]⟩
  | case2 => simp at hfuel
  | case3 fuel seen x queue hx ih =>
    rw [search, if_pos hx]
    exact ih (List.forall_mem_cons.mp hqueue).2 (by simp at hfuel; omega)
  | case4 fuel seen x queue hx ih =>
    rw [search, if_neg hx]
    obtain ⟨hmem, hrest⟩ := List.forall_mem_cons.mp hqueue
    refine ih (fun y hy => ?_) ?_
    · obtain hy | hy := List.mem_append.mp hy
      · exact hrest y hy
      · exact hnext x hmem y hy
    · rw [unseenDegree_cons hnodes hmem hx, List.length_cons] at hfuel
      rw [List.length_append]
      omega

/-- The number of neighbours there are in all is enough for a search from one node. -/
theorem search_node {nodes : List α} (hnodes : nodes.Nodup) (hnext : ∀ x ∈ nodes, ∀ y ∈ next x, y ∈ nodes)
    (ha : a ∈ nodes) :
    ∃ found, search next (nodes.map fun x => (next x).length).sum [a] (next a) = some found ∧ found.Nodup ∧
      ∀ x, x ∈ found ↔ Leads next a x := by
  have htotal : unseenDegree next nodes [] = (nodes.map fun x => (next x).length).sum := by
    simp [unseenDegree]
  have hfuel : unseenDegree next nodes [] = (next a).length + unseenDegree next nodes [a] :=
    unseenDegree_cons hnodes ha List.not_mem_nil
  have henough : (next a).length + unseenDegree next nodes [a] ≤ (nodes.map fun x => (next x).length).sum := by
    omega
  obtain ⟨found, hfound⟩ := search_total hnodes hnext (hnext a ha) henough
  exact ⟨found, hfound, search_nodup (List.nodup_singleton a) hfound, fun x => mem_search hfound⟩

end Search

end VivimOmega.Library

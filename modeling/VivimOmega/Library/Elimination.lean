import Mathlib

/-! Nodes taken off a queue once nothing that they need is left. A node counts the entries of its list;
a node that leaves is taken off a count once, however often the list names it. -/

namespace VivimOmega.Library.Elimination

section Draining

variable {α β : Type} [DecidableEq α]

structure Drain (α : Type) where
  counts : α → ℤ
  queue : List α
  order : List α

variable (key : β → α) (needs : β → List α)

def relax (id : α) (s : Drain α) (l : β) : Drain α :=
  if id ∈ needs l then
    let n := s.counts (key l) - 1
    ⟨Function.update s.counts (key l) n, if n = 0 then s.queue ++ [key l] else s.queue, s.order⟩
  else s

/-- `none` is a drain that the fuel did not suffice for. -/
def drain (nodes : List β) : ℕ → Drain α → Option (List α)
  | 0, _ => none
  | fuel + 1, s =>
    match s.queue with
    | [] => some s.order
    | id :: rest => drain nodes fuel (nodes.foldl (relax key needs id) { s with queue := rest, order := s.order ++ [id] })

def known (nodes : List β) (l : β) : List α := (needs l).filter (· ∈ nodes.map key)

def startCounts (nodes : List β) : α → ℤ :=
  nodes.foldl (fun counts l => Function.update counts (key l) (known key needs nodes l).length) fun _ => 0

def start (nodes : List β) : Drain α :=
  ⟨startCounts key needs nodes, (nodes.filter fun l => startCounts key needs nodes (key l) = 0).map key, []⟩

/-- A node whose list is without repeats and has cleared nodes only. -/
inductive Cleared (nodes : List β) : α → Prop
  | clear (l : β) : l ∈ nodes → (known key needs nodes l).Nodup → (∀ b ∈ known key needs nodes l, Cleared nodes b) →
      Cleared nodes (key l)

variable {key : β → α} {needs : β → List α} {nodes : List β} {s : Drain α} {id : α} {l : β} {order : List α}

/-- What a pass over `ls` makes of the state `s`, whose counts it has read. -/
structure Passed (key : β → α) (needs : β → List α) (id : α) (ls : List β) (s t : Drain α) : Prop where
  order : t.order = s.order
  others : ∀ a, a ∉ ls.map key → t.counts a = s.counts a
  counts : ∀ l ∈ ls, t.counts (key l) = s.counts (key l) - if id ∈ needs l then 1 else 0
  queue : t.queue = s.queue ++ (ls.filter fun l => id ∈ needs l ∧ s.counts (key l) = 1).map key

lemma relax_counts_other {a : α} (h : a ≠ key l) : (relax key needs id s l).counts a = s.counts a := by
  unfold relax
  split_ifs with hl
  · exact Function.update_of_ne h _ _
  · rfl

lemma relax_counts_self : (relax key needs id s l).counts (key l) = s.counts (key l) - if id ∈ needs l then 1 else 0 := by
  unfold relax
  split_ifs with hl
  · exact Function.update_self _ _ _
  · simp

lemma relax_order : (relax key needs id s l).order = s.order := by
  unfold relax
  split_ifs <;> rfl

lemma relax_queue : (relax key needs id s l).queue =
    s.queue ++ (if id ∈ needs l ∧ s.counts (key l) = 1 then [key l] else []) := by
  unfold relax
  by_cases hl : id ∈ needs l
  · by_cases hc : s.counts (key l) = 1
    · simp [hl, hc]
    · have hne : s.counts (key l) - 1 ≠ 0 := by omega
      simp [hl, hc, hne]
  · simp [hl]

lemma passed_foldl (needs : β → List α) (id : α) (ls : List β) (hnodup : (ls.map key).Nodup) (s : Drain α) :
    Passed key needs id ls s (ls.foldl (relax key needs id) s) := by
  induction ls generalizing s with
  | nil => exact ⟨rfl, fun _ _ => rfl, by simp, by simp⟩
  | cons l ls ih =>
    rw [List.map_cons, List.nodup_cons] at hnodup
    obtain ⟨horder, hothers, hcounts, hqueue⟩ := ih hnodup.2 (relax key needs id s l)
    have hne : ∀ x ∈ ls, key x ≠ key l := fun x hx heq => hnodup.1 (heq ▸ List.mem_map_of_mem hx)
    refine ⟨?_, ?_, ?_, ?_⟩
    · rw [List.foldl_cons, horder, relax_order]
    · intro a ha
      rw [List.map_cons, List.mem_cons, not_or] at ha
      rw [List.foldl_cons, hothers a ha.2, relax_counts_other ha.1]
    · intro x hx
      rw [List.foldl_cons]
      rcases List.mem_cons.mp hx with rfl | hx
      · rw [hothers _ hnodup.1, relax_counts_self]
      · rw [hcounts x hx, relax_counts_other (hne x hx)]
    · rw [List.foldl_cons, hqueue, relax_queue, List.append_assoc]
      congr 1
      have hsame : (ls.filter fun x => id ∈ needs x ∧ (relax key needs id s l).counts (key x) = 1) =
          ls.filter fun x => id ∈ needs x ∧ s.counts (key x) = 1 := by
        refine List.filter_congr fun x hx => ?_
        rw [relax_counts_other (hne x hx)]
      rw [hsame, List.filter_cons]
      by_cases hl : id ∈ needs l ∧ s.counts (key l) = 1 <;> simp [hl]

lemma startCounts_eq (hnodup : (nodes.map key).Nodup) (hl : l ∈ nodes) :
    startCounts key needs nodes (key l) = (known key needs nodes l).length := by
  suffices h : ∀ (ls : List β) (counts : α → ℤ), (ls.map key).Nodup →
      (∀ a, a ∉ ls.map key → ls.foldl (fun counts l => Function.update counts (key l)
        ((known key needs nodes l).length : ℤ)) counts a = counts a) ∧
      ∀ l ∈ ls, ls.foldl (fun counts l => Function.update counts (key l)
        ((known key needs nodes l).length : ℤ)) counts (key l) = (known key needs nodes l).length from
    (h nodes _ hnodup).2 l hl
  intro ls
  induction ls with
  | nil => simp
  | cons x ls ih =>
    intro counts hx
    rw [List.map_cons, List.nodup_cons] at hx
    obtain ⟨hother, hself⟩ := ih (Function.update counts (key x) (known key needs nodes x).length) hx.2
    constructor
    · intro a ha
      rw [List.map_cons, List.mem_cons, not_or] at ha
      rw [List.foldl_cons, hother a ha.2, Function.update_of_ne ha.1]
    · intro y hy
      rw [List.foldl_cons]
      rcases List.mem_cons.mp hy with rfl | hy
      · rw [hother _ hx.1, Function.update_self]
      · exact hself y hy

/-- The count of a node is what its list holds, less the drained nodes that it names. -/
structure Draining (key : β → α) (needs : β → List α) (nodes : List β) (s : Drain α) : Prop where
  nodup : (s.order ++ s.queue).Nodup
  of_nodes : ∀ a ∈ s.order ++ s.queue, a ∈ nodes.map key
  counts : ∀ l ∈ nodes, s.counts (key l) = (known key needs nodes l).length - (s.order.filter (· ∈ needs l)).length
  ready : ∀ l ∈ nodes, key l ∈ s.order ++ s.queue ↔ s.counts (key l) = 0
  cleared : ∀ a ∈ s.order ++ s.queue, Cleared key needs nodes a

lemma mem_known {a : α} : a ∈ known key needs nodes l ↔ a ∈ needs l ∧ a ∈ nodes.map key := by
  simp [known]

lemma named_subset (h : ∀ a ∈ order, a ∈ nodes.map key) : order.filter (· ∈ needs l) ⊆ known key needs nodes l := by
  intro a ha
  rw [List.mem_filter, decide_eq_true_eq] at ha
  exact mem_known.mpr ⟨ha.2, h a ha.1⟩

lemma named_length_le (needs : β → List α) (l : β) (hnodup : order.Nodup) (h : ∀ a ∈ order, a ∈ nodes.map key) :
    (order.filter (· ∈ needs l)).length ≤ (known key needs nodes l).length :=
  (List.subperm_of_subset (hnodup.filter _) (named_subset h)).length_le

/-- All of a list is drained when the drained nodes that it names are as many as its entries. -/
lemma known_perm (needs : β → List α) (l : β) (hnodup : order.Nodup) (h : ∀ a ∈ order, a ∈ nodes.map key)
    (hlength : (known key needs nodes l).length ≤ (order.filter (· ∈ needs l)).length) :
    (order.filter (· ∈ needs l)).Perm (known key needs nodes l) :=
  (List.subperm_of_subset (hnodup.filter _) (named_subset h)).perm_of_length_le hlength

lemma known_of_drained (hnodup : (known key needs nodes l).Nodup) (h : ∀ b ∈ known key needs nodes l, b ∈ order) :
    (known key needs nodes l).length ≤ (order.filter (· ∈ needs l)).length := by
  refine (List.subperm_of_subset hnodup fun b hb => ?_).length_le
  rw [List.mem_filter, decide_eq_true_eq]
  exact ⟨h b hb, (mem_known.mp hb).1⟩

omit [DecidableEq α] in
lemma key_injective (hnodup : (nodes.map key).Nodup) {m : β} (hl : l ∈ nodes) (hm : m ∈ nodes) (h : key l = key m) : l = m :=
  List.inj_on_of_nodup_map hnodup hl hm h

lemma draining_start (needs : β → List α) (hnodup : (nodes.map key).Nodup) : Draining key needs nodes (start key needs nodes) := by
  have hmem : ∀ a, a ∈ (start key needs nodes).order ++ (start key needs nodes).queue ↔
      ∃ l ∈ nodes, startCounts key needs nodes (key l) = 0 ∧ key l = a := by
    simp [start, and_assoc]
  refine ⟨?_, ?_, ?_, ?_, ?_⟩
  · exact hnodup.sublist (List.filter_sublist.map key)
  · intro a ha
    obtain ⟨l, hl, -, rfl⟩ := (hmem a).mp ha
    exact List.mem_map_of_mem hl
  · intro l hl
    change startCounts key needs nodes (key l) = _
    rw [startCounts_eq hnodup hl]
    simp [start]
  · intro l hl
    rw [hmem]
    constructor
    · rintro ⟨m, -, hzero, heq⟩
      exact heq ▸ hzero
    · exact fun hzero => ⟨l, hl, hzero, rfl⟩
  · intro a ha
    obtain ⟨l, hl, hzero, rfl⟩ := (hmem a).mp ha
    rw [startCounts_eq hnodup hl] at hzero
    have hnil : known key needs nodes l = [] := List.length_eq_zero_iff.mp (by exact_mod_cast hzero)
    exact .clear l hl (by simp [hnil]) (by simp [hnil])

variable {rest : List α}

/-- What the node at the head of the queue leaves behind. -/
lemma draining_step (hnodup : (nodes.map key).Nodup) (h : Draining key needs nodes s) (hqueue : s.queue = id :: rest) :
    Draining key needs nodes (nodes.foldl (relax key needs id) { s with queue := rest, order := s.order ++ [id] }) := by
  obtain ⟨horder, hothers, hcounts, hnext⟩ := passed_foldl needs id nodes hnodup
    { s with queue := rest, order := s.order ++ [id] }
  generalize nodes.foldl (relax key needs id) { s with queue := rest, order := s.order ++ [id] } = t at *
  simp only at horder hothers hcounts hnext
  have hold : s.order ++ [id] ++ rest = s.order ++ s.queue := by rw [hqueue, List.append_assoc, List.singleton_append]
  have hall : t.order ++ t.queue =
      (s.order ++ s.queue) ++ (nodes.filter fun l => id ∈ needs l ∧ s.counts (key l) = 1).map key := by
    rw [horder, hnext, ← List.append_assoc, hold]
  have hnew : ∀ a, a ∈ (nodes.filter fun l => id ∈ needs l ∧ s.counts (key l) = 1).map key ↔
      ∃ l ∈ nodes, (id ∈ needs l ∧ s.counts (key l) = 1) ∧ key l = a := by
    simp [and_assoc]
  have hdrained : (s.order ++ [id]).Nodup := (hold ▸ h.nodup).sublist (List.sublist_append_left _ _)
  have hfrom : ∀ a ∈ s.order ++ [id], a ∈ nodes.map key :=
    fun a ha => h.of_nodes a (hold ▸ List.mem_append_left rest ha)
  have hcount : ∀ l ∈ nodes, t.counts (key l) =
      (known key needs nodes l).length - ((s.order ++ [id]).filter (· ∈ needs l)).length := by
    intro l hl
    rw [hcounts l hl, h.counts l hl, List.filter_append]
    by_cases hid : id ∈ needs l <;> simp [hid]
    omega
  refine ⟨?_, ?_, ?_, ?_, ?_⟩
  · rw [hall]
    refine h.nodup.append (hnodup.sublist (List.filter_sublist.map key)) ?_
    intro a ha hb
    obtain ⟨l, hl, hone, rfl⟩ := (hnew a).mp hb
    have hzero := (h.ready l hl).mp ha
    omega
  · intro a ha
    rw [hall, List.mem_append] at ha
    rcases ha with ha | ha
    · exact h.of_nodes a ha
    · obtain ⟨l, hl, -, rfl⟩ := (hnew a).mp ha
      exact List.mem_map_of_mem hl
  · rw [horder]
    exact hcount
  · intro l hl
    have hle := named_length_le needs l hdrained hfrom
    have hc := hcount l hl
    have hc' := hcounts l hl
    have hnewl : key l ∈ (nodes.filter fun l => id ∈ needs l ∧ s.counts (key l) = 1).map key ↔
        id ∈ needs l ∧ s.counts (key l) = 1 := by
      rw [hnew]
      constructor
      · rintro ⟨m, hm, hone, heq⟩
        exact key_injective hnodup hm hl heq ▸ hone
      · exact fun hone => ⟨l, hl, hone, rfl⟩
    rw [hall, List.mem_append, h.ready l hl, hnewl]
    by_cases hid : id ∈ needs l
    · simp only [hid, if_true, true_and] at hc' ⊢
      omega
    · simp only [hid, if_false, false_and, or_false] at hc' ⊢
      omega
  · intro a ha
    rw [hall, List.mem_append] at ha
    rcases ha with ha | ha
    · exact h.cleared a ha
    · obtain ⟨l, hl, hone, rfl⟩ := (hnew a).mp ha
      have hc := hcount l hl
      have hc' := hcounts l hl
      simp only [hone.1, if_true] at hc'
      have hperm := known_perm needs l hdrained hfrom (by omega)
      refine .clear l hl (hperm.nodup_iff.mp (hdrained.filter _)) fun b hb => ?_
      have hb' := List.mem_of_mem_filter (hperm.mem_iff.mpr hb)
      exact h.cleared b (hold ▸ List.mem_append_left rest hb')

lemma length_le_nodes (h : Draining key needs nodes s) : (s.order ++ s.queue).length ≤ nodes.length := by
  have hsub := (List.subperm_of_subset h.nodup fun a ha => h.of_nodes a ha).length_le
  rwa [List.length_map] at hsub

/-- One round for each node and one to see that the queue is empty suffice. -/
lemma drain_some (hnodup : (nodes.map key).Nodup) (fuel : ℕ) (s : Drain α) (h : Draining key needs nodes s)
    (hfuel : nodes.length < fuel + s.order.length) :
    ∃ t : Drain α, drain key needs nodes fuel s = some t.order ∧ t.queue = [] ∧ Draining key needs nodes t := by
  induction fuel generalizing s with
  | zero =>
    have hle := length_le_nodes h
    rw [List.length_append] at hle
    omega
  | succ fuel ih =>
    cases hqueue : s.queue with
    | nil => exact ⟨s, by simp [drain, hqueue], hqueue, h⟩
    | cons id rest =>
      obtain ⟨t, ht, hempty, hinv⟩ := ih _ (draining_step hnodup h hqueue) (by
        rw [(passed_foldl needs id nodes hnodup _).order, List.length_append, List.length_singleton]
        omega)
      exact ⟨t, by simp only [drain, hqueue, ht], hempty, hinv⟩

/-- The order that a drain ends with: every node that clears, once. -/
structure Drained (key : β → α) (needs : β → List α) (nodes : List β) (order : List α) : Prop where
  nodup : order.Nodup
  of_nodes : ∀ a ∈ order, a ∈ nodes.map key
  cleared : ∀ a, a ∈ order ↔ Cleared key needs nodes a

theorem drain_start (needs : β → List α) (hnodup : (nodes.map key).Nodup) :
    ∃ order, drain key needs nodes (nodes.length + 1) (start key needs nodes) = some order ∧
      Drained key needs nodes order := by
  obtain ⟨t, ht, hempty, hinv⟩ := drain_some hnodup (nodes.length + 1) _ (draining_start needs hnodup) (by omega)
  have hqueue : t.order ++ t.queue = t.order := by rw [hempty, List.append_nil]
  obtain ⟨hn, hfrom, hcounts, hready, hcleared⟩ := hinv
  rw [hqueue] at hn hfrom hready hcleared
  refine ⟨t.order, ht, hn, hfrom, fun a => ⟨hcleared a, fun ha => ?_⟩⟩
  induction ha with
  | clear l hl hdistinct _ ih =>
    have hge := known_of_drained hdistinct ih
    have hle := named_length_le needs l hn hfrom
    rw [hready l hl, hcounts l hl]
    omega

lemma all_cleared_iff (hnodup : (nodes.map key).Nodup) (h : Drained key needs nodes order) :
    order.length = nodes.length ↔ ∀ l ∈ nodes, key l ∈ order := by
  have hsub := List.subperm_of_subset h.nodup fun a ha => h.of_nodes a ha
  constructor
  · intro hlength l hl
    have hperm := hsub.perm_of_length_le (by rw [List.length_map, hlength])
    exact hperm.mem_iff.mpr (List.mem_map_of_mem hl)
  · intro hall
    have hback : nodes.map key ⊆ order := by
      intro a ha
      obtain ⟨l, hl, rfl⟩ := List.mem_map.mp ha
      exact hall l hl
    have hle := hsub.length_le
    have hge := (List.subperm_of_subset hnodup hback).length_le
    rw [List.length_map] at hle hge
    omega

end Draining

section Cycles

variable {α β : Type} [DecidableEq α] (key : β → α) (needs : β → List α) (nodes : List β)

/-- The one needs the other, and both are nodes. -/
def Needs (a b : α) : Prop := ∃ l ∈ nodes, key l = a ∧ b ∈ known key needs nodes l

/-- A node on a cycle, or with a list that names a node twice. -/
def Knotted (a : α) : Prop :=
  Relation.TransGen (Needs key needs nodes) a a ∨ ∃ l ∈ nodes, key l = a ∧ ¬ (known key needs nodes l).Nodup

variable {key needs nodes} {a b : α}

lemma cleared_needs (hnodup : (nodes.map key).Nodup) (ha : Cleared key needs nodes a) (hab : Needs key needs nodes a b) :
    Cleared key needs nodes b := by
  obtain ⟨l, hl, hdistinct, hb⟩ := ha
  obtain ⟨m, hm, heq, hmem⟩ := hab
  obtain rfl := key_injective hnodup hm hl heq
  exact hb b hmem

lemma cleared_reaches (hnodup : (nodes.map key).Nodup) (ha : Cleared key needs nodes a)
    (hab : Relation.ReflTransGen (Needs key needs nodes) a b) : Cleared key needs nodes b := by
  induction hab with
  | refl => exact ha
  | tail _ hstep ih => exact cleared_needs hnodup ih hstep

lemma not_knotted_of_cleared (hnodup : (nodes.map key).Nodup) (ha : Cleared key needs nodes a) :
    ¬ Knotted key needs nodes a := by
  induction ha with
  | clear l hl hdistinct _ ih =>
    rintro (hcycle | ⟨m, hm, heq, hrepeat⟩)
    · obtain ⟨b, hstep, hback⟩ := Relation.TransGen.head'_iff.mp hcycle
      obtain ⟨m, hm, heq, hmem⟩ := id hstep
      obtain rfl := key_injective hnodup hm hl heq
      exact ih b hmem (.inl (Relation.TransGen.tail' hback hstep))
    · obtain rfl := key_injective hnodup hm hl heq
      exact hrepeat hdistinct

lemma needs_of_nodes (hab : Needs key needs nodes a b) : b ∈ nodes.map key := by
  obtain ⟨l, -, -, hb⟩ := hab
  exact (mem_known.mp hb).2

/-- With no knot in reach, what a node needs is well founded, since the nodes are finitely many. -/
lemma cleared_of_unknotted (ha : a ∈ nodes.map key)
    (h : ∀ b, Relation.ReflTransGen (Needs key needs nodes) a b → ¬ Knotted key needs nodes b) :
    Cleared key needs nodes a := by
  let Within := {b : α // b ∈ nodes.map key ∧ Relation.ReflTransGen (Needs key needs nodes) a b}
  have hfinite : Finite Within :=
    (Set.Finite.subset (List.finite_toSet (nodes.map key)) fun b hb => hb.1).to_subtype
  let Below : Within → Within → Prop := fun x y => Relation.TransGen (Needs key needs nodes) y.1 x.1
  have htrans : IsTrans Within Below := ⟨fun x y z hxy hyz => hyz.trans hxy⟩
  have hirrefl : Std.Irrefl Below := ⟨fun x hx => h x.1 x.2.2 (.inl hx)⟩
  have hwf := Finite.wellFounded_of_trans_of_irrefl Below
  suffices hall : ∀ x : Within, Cleared key needs nodes x.1 from hall ⟨a, ha, .refl⟩
  intro x
  induction x using hwf.induction with
  | h x ih =>
    obtain ⟨b, hb, hreach⟩ := x
    obtain ⟨l, hl, rfl⟩ := List.mem_map.mp hb
    have hdistinct : (known key needs nodes l).Nodup := by
      by_contra hrepeat
      exact h _ hreach (.inr ⟨l, hl, rfl, hrepeat⟩)
    refine .clear l hl hdistinct fun c hc => ?_
    have hstep : Needs key needs nodes (key l) c := ⟨l, hl, rfl, hc⟩
    exact ih ⟨c, needs_of_nodes hstep, hreach.tail hstep⟩ (.single hstep)

theorem not_cleared_iff (hnodup : (nodes.map key).Nodup) (ha : a ∈ nodes.map key) :
    ¬ Cleared key needs nodes a ↔
      ∃ b, Relation.ReflTransGen (Needs key needs nodes) a b ∧ Knotted key needs nodes b := by
  constructor
  · intro hblocked
    by_contra hnone
    push Not at hnone
    exact hblocked (cleared_of_unknotted ha hnone)
  · rintro ⟨b, hreach, hknot⟩ hcleared
    exact not_knotted_of_cleared hnodup (cleared_reaches hnodup hcleared hreach) hknot

end Cycles

end VivimOmega.Library.Elimination

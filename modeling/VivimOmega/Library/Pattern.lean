import Mathlib

/-! Backtracking patterns with groups, and their matches in the order in which they are tried. -/

namespace VivimOmega.Library

/-- A place in a text: what is before it, the last first, and what is after it. -/
structure Place (α : Type) where
  before : List α
  after : List α

/-- A repetition is of one class, as many as it can get or as few. -/
inductive Pattern (α : Type)
  | empty
  | one (p : α → Bool)
  | many (greedy : Bool) (least : ℕ) (p : α → Bool)
  | seq (l r : Pattern α)
  | alt (l r : Pattern α)
  | group (n : ℕ) (r : Pattern α)
  | border (p : Option α → Option α → Bool)

namespace Pattern

variable {α : Type}

abbrev Groups (α : Type) := ℕ → Option (List α)

/-- The places that repetitions of a class reach, the nearest first. -/
def spans (p : α → Bool) : List α → List α → List (Place α)
  | before, [] => [⟨before, []⟩]
  | before, u :: rest => ⟨before, u :: rest⟩ :: if p u then spans p (u :: before) rest else []

def captured (s t : Place α) : List α := s.after.take (s.after.length - t.after.length)

def tries : Pattern α → Place α × Groups α → List (Place α × Groups α)
  | empty, s => [s]
  | one p, (⟨before, u :: rest⟩, g) => if p u then [(⟨u :: before, rest⟩, g)] else []
  | one _, (⟨_, []⟩, _) => []
  | many greedy least p, (s, g) =>
    let reached := (spans p s.before s.after).drop least
    (if greedy then reached.reverse else reached).map fun t => (t, g)
  | seq l r, s => (tries l s).flatMap (tries r)
  | alt l r, s => tries l s ++ tries r s
  | group n r, s => (tries r s).map fun t => (t.1, Function.update t.2 n (some (captured s.1 t.1)))
  | border p, s => if p s.1.before.head? s.1.after.head? then [s] else []

/-- The first match at the start of a text. -/
def exec (r : Pattern α) (text : List α) : Option (Place α × Groups α) := (tries r (⟨[], text⟩, fun _ => none)).head?

def test (r : Pattern α) (text : List α) : Bool := (r.exec text).isSome

def seqs : List (Pattern α) → Pattern α
  | [] => empty
  | [r] => r
  | r :: s :: rest => seq r (seqs (s :: rest))

def alts : List (Pattern α) → Pattern α
  | [] => many true 1 fun _ => false
  | [r] => r
  | r :: s :: rest => alt r (alts (s :: rest))

def opt (r : Pattern α) : Pattern α := alt r empty

def text [DecidableEq α] (s : List α) : Pattern α := seqs (s.map fun u => one (· = u))

/-- The end of the text. -/
def stop : Pattern α := border fun _ next => next.isNone

/-- The first match in a text, from the left. -/
def search (r : Pattern α) (text : List α) : Option (Place α × Groups α) := (seq (many false 0 fun _ => true) r).exec text

/-- A pattern that captures nothing. -/
def Plain : Pattern α → Prop
  | empty | one _ | many _ _ _ | border _ => True
  | seq l r | alt l r => Plain l ∧ Plain r
  | group _ _ => False

variable {r : Pattern α} {p : α → Bool} {s t : Place α × Groups α} {before after : List α} {here : Place α}

lemma spans_class (h : here ∈ spans p before after) : ∃ passed, after = passed ++ here.after ∧ ∀ u ∈ passed, p u = true := by
  induction after generalizing before with
  | nil =>
    obtain rfl := List.mem_singleton.mp h
    exact ⟨[], rfl, by simp⟩
  | cons u after ih =>
    rw [spans, List.mem_cons] at h
    rcases h with rfl | h
    · exact ⟨[], rfl, by simp⟩
    · split_ifs at h with hu
      · obtain ⟨passed, rfl, hpassed⟩ := ih h
        exact ⟨u :: passed, rfl, List.forall_mem_cons.mpr ⟨hu, hpassed⟩⟩
      · cases h

/-- What a repetition captures is of its class. -/
lemma captured_class {greedy : Bool} {least : ℕ} (h : t ∈ tries (many greedy least p) s) : ∀ u ∈ captured s.1 t.1, p u = true := by
  obtain ⟨here, hhere, rfl⟩ := List.mem_map.mp h
  have hmem : here ∈ spans p s.1.before s.1.after := by
    cases greedy with
    | false => exact List.mem_of_mem_drop hhere
    | true => exact List.mem_of_mem_drop (List.mem_reverse.mp hhere)
  obtain ⟨passed, hpassed, hclass⟩ := spans_class hmem
  rw [captured, hpassed, List.length_append, Nat.add_sub_cancel, List.take_left]
  exact hclass

lemma plain_groups (hr : r.Plain) (h : t ∈ tries r s) : t.2 = s.2 := by
  induction r generalizing s t with
  | empty => rw [List.mem_singleton.mp h]
  | one p =>
    obtain ⟨⟨before, after⟩, g⟩ := s
    cases after with
    | nil => cases h
    | cons u after =>
      unfold tries at h
      split_ifs at h
      · rw [List.mem_singleton.mp h]
      · cases h
  | many greedy least p =>
    obtain ⟨here, -, rfl⟩ := List.mem_map.mp h
    rfl
  | seq l r ihl ihr =>
    obtain ⟨x, hx, ht⟩ := List.mem_flatMap.mp h
    exact (ihr hr.2 ht).trans (ihl hr.1 hx)
  | alt l r ihl ihr =>
    rcases List.mem_append.mp h with h | h
    · exact ihl hr.1 h
    · exact ihr hr.2 h
  | group n r => exact hr.elim
  | border p =>
    unfold tries at h
    split_ifs at h
    · rw [List.mem_singleton.mp h]
    · cases h

lemma plain_text [DecidableEq α] (word : List α) : (text word).Plain := by
  induction word with
  | nil => trivial
  | cons u word ih =>
    cases word with
    | nil => trivial
    | cons v word => exact ⟨trivial, ih⟩

end Pattern

end VivimOmega.Library

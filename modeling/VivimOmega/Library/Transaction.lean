import Mathlib

/-! Transactions: statements over a store, any of which may fail, and a rollback when one does. -/

namespace VivimOmega.Library

/-- A store with the environment's next fault: how many statements succeed before one fails. -/
structure Session (S : Type) where
  store : S
  fault : Option (ℕ × String)

abbrev Program (S α : Type) := StateT (Session S) (Except String) α

namespace Program

variable {S α β : Type}

def statement (f : S → Except String (α × S)) : Program S α := fun s =>
  match s.fault with
  | none => (f s.store).map fun r => (r.1, ⟨r.2, none⟩)
  | some (0, error) => .error error
  | some (n + 1, error) => (f s.store).map fun r => (r.1, ⟨r.2, some (n, error)⟩)

def query (f : S → α) : Program S α := statement fun s => .ok (f s, s)

def execute (f : S → Except String S) : Program S Unit := statement fun s => (f s).map fun t => ((), t)

/-- A value computed outside the store. -/
def value (x : Except String α) : Program S α := fun s => x.map fun a => (a, s)

/-- Commits what the program did, or rolls everything back. -/
def transaction (p : Program S α) (store : S) (fault : Option (ℕ × String)) :
    Except String α × S :=
  match p ⟨store, fault⟩ with
  | .ok (a, s) => (.ok a, s.store)
  | .error e => (.error e, store)

/-- The program succeeds from the first store, with the value and the second store. -/
def Runs (p : Program S α) (s : S) (a : α) (t : S) : Prop :=
  ∃ fault fault', p ⟨s, fault⟩ = .ok (a, ⟨t, fault'⟩)

section Rules

variable {s t u : S} {a a' : α} {b : β}

lemma runs_bind {p : Program S α} {f : α → Program S β} (h : Runs (p >>= f) s b u) :
    ∃ a t, Runs p s a t ∧ Runs (f a) t b u := by
  obtain ⟨fault, fault', h⟩ := h
  have hbind : (p ⟨s, fault⟩ >>= fun r => f r.1 r.2) = .ok (b, ⟨u, fault'⟩) := h
  cases hp : p ⟨s, fault⟩ with
  | error e => rw [hp] at hbind; cases hbind
  | ok r =>
    rw [hp] at hbind
    exact ⟨r.1, r.2.store, ⟨fault, r.2.fault, hp⟩, ⟨r.2.fault, fault', hbind⟩⟩

lemma runs_pure (h : Runs (pure a) s a' t) : a' = a ∧ t = s := by
  obtain ⟨fault, fault', h⟩ := h
  cases h
  exact ⟨rfl, rfl⟩

lemma runs_statement {f : S → Except String (α × S)} (h : Runs (statement f) s a t) :
    f s = .ok (a, t) := by
  obtain ⟨fault, fault', h⟩ := h
  cases hf : f s with
  | error e => unfold statement at h; split at h <;> simp [hf, Except.map] at h
  | ok r => unfold statement at h; split at h <;> simp [hf, Except.map] at h <;> simp [← h]

lemma runs_query {f : S → α} (h : Runs (query f) s a t) : a = f s ∧ t = s := by
  have hh := runs_statement h
  cases hh
  exact ⟨rfl, rfl⟩

lemma runs_execute {f : S → Except String S} {a : Unit} (h : Runs (execute f) s a t) :
    f s = .ok t := by
  have hh := runs_statement h
  cases hf : f s with
  | error e => rw [hf] at hh; cases hh
  | ok u => rw [hf] at hh; cases hh; rfl

lemma runs_value {x : Except String α} (h : Runs (value x) s a t) : x = .ok a ∧ t = s := by
  obtain ⟨fault, fault', h⟩ := h
  cases x with
  | error e => cases h
  | ok b => cases h; exact ⟨rfl, rfl⟩

lemma runs_query_bind {f : S → α} {g : α → Program S β} (h : Runs (query f >>= g) s b u) :
    Runs (g (f s)) s b u := by
  obtain ⟨a, t, hquery, h⟩ := runs_bind h
  obtain ⟨ha, ht⟩ := runs_query hquery
  rwa [ha, ht] at h

lemma runs_value_bind {x : Except String α} {g : α → Program S β} (h : Runs (value x >>= g) s b u) :
    ∃ a, x = .ok a ∧ Runs (g a) s b u := by
  obtain ⟨a, t, hvalue, h⟩ := runs_bind h
  obtain ⟨ha, ht⟩ := runs_value hvalue
  rw [ht] at h
  exact ⟨a, ha, h⟩

lemma runs_execute_bind {f : S → Except String S} {g : Unit → Program S β}
    (h : Runs (execute f >>= g) s b u) : ∃ t, f s = .ok t ∧ Runs (g ()) t b u := by
  obtain ⟨a, t, hexecute, h⟩ := runs_bind h
  exact ⟨t, runs_execute hexecute, h⟩

lemma transaction_cases (p : Program S α) (s : S) (fault : Option (ℕ × String)) :
    (∃ e, transaction p s fault = (.error e, s)) ∨
      ∃ a t, transaction p s fault = (.ok a, t) ∧ Runs p s a t := by
  unfold transaction
  cases h : p ⟨s, fault⟩ with
  | error e => exact Or.inl ⟨e, rfl⟩
  | ok r => exact Or.inr ⟨r.1, r.2.store, rfl, fault, r.2.fault, h⟩

/-- The program succeeds where nothing is made to fail. -/
def Completes (p : Program S α) (s : S) (a : α) (t : S) : Prop :=
  p ⟨s, none⟩ = .ok (a, ⟨t, none⟩)

lemma completes_then {p : Program S α} {q : Program S β} (hp : Completes p s a t)
    (hq : Completes q t b u) : Completes (p >>= fun _ => q) s b u := by
  have hbind : (p >>= fun _ => q) ⟨s, none⟩ = (p ⟨s, none⟩ >>= fun r => q r.2) := rfl
  rw [Completes, hbind, hp]
  exact hq

lemma completes_pure (a : α) (s : S) : Completes (pure a : Program S α) s a s := rfl

lemma completes_execute {f : S → Except String S} (h : f s = .ok t) : Completes (execute f) s () t := by
  rw [Completes, execute, statement, h]
  rfl

lemma transaction_completes {p : Program S α} (h : Completes p s a t) :
    transaction p s none = (.ok a, t) := by
  rw [transaction, h]

end Rules

end Program

end VivimOmega.Library

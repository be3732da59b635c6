import VivimOmega.Library.Transition

/-! Programs that ask a shared service one question at a time, and what any interleaving of them keeps. -/

namespace VivimOmega.Library

inductive Process (Q : Type) (A : Q → Type) (R : Type) : Type
  | done (r : R)
  | ask (q : Q) (next : A q → Process Q A R)

namespace Process

variable {Q : Type} {A : Q → Type} {R T : Type}

def bind : Process Q A R → (R → Process Q A T) → Process Q A T
  | done r, f => f r
  | ask q next, f => ask q fun a => (next a).bind f

instance instMonadProcess : Monad (Process Q A) where
  pure := done
  bind := bind

@[simp] lemma bind_done (r : R) (f : R → Process Q A T) : (done r).bind f = f r := rfl

@[simp] lemma bind_ask (q : Q) (next : A q → Process Q A R) (f : R → Process Q A T) :
    (ask q next).bind f = ask q fun a => (next a).bind f := rfl

/-- What is left of a program after its first questions were answered so. -/
inductive After (p : Process Q A R) : List ((q : Q) × A q) → Process Q A R → Prop
  | nil : After p [] p
  | snoc {answers} {q : Q} {next : A q → Process Q A R} (a : A q) :
    After p answers (ask q next) → After p (answers ++ [⟨q, a⟩]) (next a)

lemma After.cons {q : Q} {next : A q → Process Q A R} {a : A q} {answers : List ((q : Q) × A q)} {r : Process Q A R}
    (h : (next a).After answers r) : (ask q next).After (⟨q, a⟩ :: answers) r := by
  induction h with
  | nil => exact .snoc a .nil
  | snoc b _ ih =>
    rw [← List.cons_append]
    exact .snoc b ih

/-- A program's whole run where each question has one answer. -/
def told (answer : (q : Q) → A q) : Process Q A R → List ((q : Q) × A q) × R
  | done r => ([], r)
  | ask q next => (⟨q, answer q⟩ :: (told answer (next (answer q))).1, (told answer (next (answer q))).2)

lemma after_told (answer : (q : Q) → A q) (p : Process Q A R) : p.After (p.told answer).1 (.done (p.told answer).2) := by
  induction p with
  | done r => exact .nil
  | ask q next ih => exact (ih (answer q)).cons

lemma mem_told {answer : (q : Q) → A q} {p : Process Q A R} {x : (q : Q) × A q} (h : x ∈ (p.told answer).1) :
    x.2 = answer x.1 := by
  induction p with
  | done r => exact absurd h List.not_mem_nil
  | ask q next ih =>
    obtain rfl | hrest := List.mem_cons.mp h
    · rfl
    · exact ih _ hrest

lemma told_bind (answer : (q : Q) → A q) (p : Process Q A R) (f : R → Process Q A T) :
    (p.bind f).told answer =
      ((p.told answer).1 ++ ((f (p.told answer).2).told answer).1, ((f (p.told answer).2).told answer).2) := by
  induction p with
  | done r => rfl
  | ask q next ih => simp only [bind_ask, told, ih, List.cons_append]

section Triples

variable {asks : List ((q : Q) × A q) → Q → Prop} {ends post : List ((q : Q) × A q) → R → Prop}
variable {out : List ((q : Q) × A q) → T → Prop} {past answers : List ((q : Q) × A q)} {p : Process Q A R}

/-- After the answers in `past`, whatever else it is told, a program asks and ends as it should. -/
def Meets (asks : List ((q : Q) × A q) → Q → Prop) (ends : List ((q : Q) × A q) → R → Prop) :
    List ((q : Q) × A q) → Process Q A R → Prop
  | past, done r => ends past r
  | past, ask q next => asks past q ∧ ∀ a, Meets asks ends (past ++ [⟨q, a⟩]) (next a)

lemma Meets.bind {f : R → Process Q A T} (h : Meets asks post past p)
    (hf : ∀ l r, post l r → Meets asks out l (f r)) : Meets asks out past (p.bind f) := by
  induction p generalizing past with
  | done r => exact hf past r h
  | ask q next ih => exact ⟨h.1, fun a => ih a (h.2 a)⟩

lemma Meets.mono (h : Meets asks post past p) (hends : ∀ l r, post l r → ends l r) : Meets asks ends past p := by
  induction p generalizing past with
  | done r => exact hends past r h
  | ask q next ih => exact ⟨h.1, fun a => ih a (h.2 a)⟩

lemma Meets.after (h : Meets asks ends past p) {r : Process Q A R} (hr : p.After answers r) :
    Meets asks ends (past ++ answers) r := by
  induction hr with
  | nil => rwa [List.append_nil]
  | snoc a _ ih =>
    rw [← List.append_assoc]
    exact ih.2 a

/-- Each question was asked as it should, after the ones before it. -/
lemma Meets.asked (h : Meets asks ends past p) {r : Process Q A R} (hr : p.After answers r)
    {before rest : List ((q : Q) × A q)} {x : (q : Q) × A q} (hx : answers = before ++ x :: rest) :
    asks (past ++ before) x.1 := by
  induction hr generalizing rest with
  | nil => exact absurd hx (by simp)
  | @snoc answers q next a hafter ih =>
    obtain rfl | ⟨rest, y, rfl⟩ := List.eq_nil_or_concat rest
    · obtain ⟨rfl, hlast⟩ := List.append_inj' hx rfl
      obtain rfl := List.head_eq_of_cons_eq hlast
      exact (h.after hafter).1
    · rw [List.concat_eq_append, ← List.cons_append, ← List.append_assoc] at hx
      obtain ⟨hinit, _⟩ := List.append_inj' hx rfl
      exact ih hinit

end Triples

end Process

/-- A program that may throw a text. -/
abbrev Throwing (Q : Type) (A : Q → Type) := ExceptT String (Process Q A)

namespace Throwing

variable {Q : Type} {A : Q → Type} {α β : Type}

def ask (q : Q) : Throwing Q A (A q) := ExceptT.mk (.ask q fun a => .done (.ok a))

variable {asks : List ((q : Q) × A q) → Q → Prop} {past : List ((q : Q) × A q)}
variable {ends : List ((q : Q) × A q) → Except String β → Prop}
variable {post : List ((q : Q) × A q) → Except String α → Prop}

lemma run_bind (x : Throwing Q A α) (k : α → Throwing Q A β) : (x >>= k).run =
    x.run.bind fun r => match r with
      | .error e => .done (.error e)
      | .ok a => (k a).run := by
  apply congrArg (Process.bind (ExceptT.run x))
  funext r
  cases r <;> rfl

lemma meets_bind {x : Throwing Q A α} {k : α → Throwing Q A β} (hx : x.run.Meets asks post past)
    (herror : ∀ l e, post l (.error e) → ends l (.error e))
    (hok : ∀ l a, post l (.ok a) → (k a).run.Meets asks ends l) : (x >>= k).run.Meets asks ends past := by
  rw [run_bind]
  refine hx.bind fun l r hr => ?_
  cases r with
  | error e => exact herror l e hr
  | ok a => exact hok l a hr

lemma meets_ask {q : Q} {k : A q → Throwing Q A β} (hq : asks past q)
    (hk : ∀ a, (k a).run.Meets asks ends (past ++ [⟨q, a⟩])) : (ask q >>= k).run.Meets asks ends past :=
  ⟨hq, hk⟩

lemma meets_lift {x : Except String α} {k : α → Throwing Q A β} (herror : ∀ e, x = .error e → ends past (.error e))
    (hok : ∀ a, x = .ok a → (k a).run.Meets asks ends past) :
    ((liftM x : Throwing Q A α) >>= k).run.Meets asks ends past := by
  cases x with
  | error e => exact herror e rfl
  | ok a => exact hok a rfl

lemma meets_pure {a : β} (h : ends past (.ok a)) : (pure a : Throwing Q A β).run.Meets asks ends past := h

end Throwing

/-- A service: what it answers, and its store after the question, where the environment may interfere. -/
structure Service (Q : Type) (A : Q → Type) (S F : Type) where
  serve : F → S → (q : Q) → A q × S

/-- A question served: which task of which call asked it, and what it was told. -/
structure Served (Q : Type) (A : Q → Type) (F C : Type) where
  task : ℕ
  call : C
  fault : F
  exchange : (q : Q) × A q

/-- Calls that are under way on one store, with the questions served so far. -/
structure Pool (Q : Type) (A : Q → Type) (R S F C : Type) where
  store : S
  tasks : List (C × Process Q A R)
  history : List (Served Q A F C)

inductive PoolEvent (F C : Type)
  | call (c : C)
  | serve (n : ℕ) (fault : F)

namespace Pool

variable {Q : Type} {A : Q → Type} {R S F C : Type}

def answers (s : Pool Q A R S F C) (n : ℕ) : List ((q : Q) × A q) :=
  (s.history.filter fun v => v.task = n).map Served.exchange

section Updates

variable (V : Service Q A S F) (s : Pool Q A R S F C) (n : ℕ) (c : C) (fault : F) (q : Q)
variable (next : A q → Process Q A R)

def start (p : Process Q A R) : Pool Q A R S F C := { s with tasks := s.tasks ++ [(c, p)] }

/-- Task `n` goes on with the answer to the question that it asks. -/
def advance : Pool Q A R S F C where
  store := (V.serve fault s.store q).2
  tasks := s.tasks.set n (c, next (V.serve fault s.store q).1)
  history := s.history ++ [⟨n, c, fault, ⟨q, (V.serve fault s.store q).1⟩⟩]

lemma answers_advance (m : ℕ) : (s.advance V n c fault q next).answers m =
    s.answers m ++ if n = m then [⟨q, (V.serve fault s.store q).1⟩] else [] := by
  rw [answers, advance, List.filter_append, List.map_append, List.filter_singleton]
  by_cases h : n = m
  · simp [h, answers]
  · simp [h, answers]

end Updates

/-- A call starts its program, or the question that a task asks is served and the task goes on. -/
def step (V : Service Q A S F) (program : C → Process Q A R) (s : Pool Q A R S F C) :
    PoolEvent F C → Option (Pool Q A R S F C)
  | .call c => some (s.start c (program c))
  | .serve n fault =>
    match s.tasks[n]? with
    | some (c, .ask q next) => some (s.advance V n c fault q next)
    | _ => none

/-- The pools that a store starts with no call under way. -/
def system (V : Service Q A S F) (program : C → Process Q A R) (init : S → Prop) :
    System (Pool Q A R S F C) (PoolEvent F C) where
  init s := init s.store ∧ s.tasks = [] ∧ s.history = []
  step := step V program

section Steps

variable {V : Service Q A S F} {program : C → Process Q A R} {s t : Pool Q A R S F C} {e : PoolEvent F C}

/-- A step starts one call or serves one question. -/
lemma step_cases (h : step V program s e = some t) :
    (∃ c, e = .call c ∧ t = s.start c (program c)) ∨
      ∃ n fault c q next, e = .serve n fault ∧ s.tasks[n]? = some (c, .ask q next) ∧
        t = s.advance V n c fault q next := by
  cases e with
  | call c => exact Or.inl ⟨c, rfl, (Option.some.inj h).symm⟩
  | serve n fault =>
    rw [step] at h
    split at h
    · rename_i c q next htask
      exact Or.inr ⟨n, fault, c, q, next, rfl, htask, (Option.some.inj h).symm⟩
    · cases h

lemma getElem?_start {n : ℕ} {c d : C} {p r : Process Q A R} (h : (s.start d r).tasks[n]? = some (c, p)) :
    s.tasks[n]? = some (c, p) ∨ n = s.tasks.length ∧ c = d ∧ p = r := by
  rw [start, List.getElem?_append] at h
  split_ifs at h with hn
  · exact Or.inl h
  · obtain ⟨hn', hx⟩ := List.getElem?_eq_some_iff.mp h
    have hzero : n - s.tasks.length = 0 := by simpa using hn'
    simp only [hzero, List.getElem_cons_zero, Prod.mk.injEq] at hx
    exact Or.inr ⟨by omega, hx.1.symm, hx.2.symm⟩

lemma getElem?_advance {n m : ℕ} {fault : F} {c d : C} {q : Q} {next : A q → Process Q A R} {p : Process Q A R}
    (h : (s.advance V n c fault q next).tasks[m]? = some (d, p)) :
    m ≠ n ∧ s.tasks[m]? = some (d, p) ∨ m = n ∧ d = c ∧ p = next (V.serve fault s.store q).1 := by
  rw [advance, List.getElem?_set] at h
  split_ifs at h with heq hn
  · obtain ⟨rfl, rfl⟩ := Prod.mk.injEq .. ▸ Option.some.inj h
    exact Or.inr ⟨heq.symm, rfl, rfl⟩
  · exact Or.inl ⟨Ne.symm heq, h⟩

/-- Every task is what is left of the program of its call after the answers it was given. -/
lemma after {init : S → Prop} {ok : Pool Q A R S F C → PoolEvent F C → Prop}
    (h : (system V program init).Reachable ok s) {n : ℕ} {c : C} {p : Process Q A R}
    (hn : s.tasks[n]? = some (c, p)) : (program c).After (s.answers n) p := by
  suffices hh : (∀ v ∈ s.history, v.task < s.tasks.length) ∧
      ∀ n c p, s.tasks[n]? = some (c, p) → (program c).After (s.answers n) p from hh.2 n c p hn
  refine h.invariant (P := fun s => (∀ v ∈ s.history, v.task < s.tasks.length) ∧
    ∀ n c p, s.tasks[n]? = some (c, p) → (program c).After (s.answers n) p) ?_ ?_
  · rintro s ⟨_, htasks, hhistory⟩
    rw [htasks, hhistory]
    exact ⟨fun v hv => absurd hv List.not_mem_nil, fun n c p hp => by simp at hp⟩
  · intro s e t _ hs _ hstep
    obtain ⟨hlt, hafter⟩ := hs
    obtain ⟨c, rfl, rfl⟩ | ⟨n, fault, c, q, next, rfl, htask, rfl⟩ := step_cases hstep
    · refine ⟨fun v hv => ?_, fun m d p hm => ?_⟩
      · rw [start, List.length_append]
        exact (hlt v hv).trans (Nat.lt_succ_self _)
      · obtain hold | ⟨rfl, rfl, rfl⟩ := getElem?_start hm
        · exact hafter m d p hold
        · have hnone : (s.start d (program d)).answers s.tasks.length = [] := by
            rw [answers, List.filter_eq_nil_iff.mpr, List.map_nil]
            intro v hv
            simpa using (hlt v hv).ne
          rw [hnone]
          exact .nil
    · refine ⟨fun v hv => ?_, fun m d p hm => ?_⟩
      · rw [advance, List.length_set]
        obtain hold | hnew := List.mem_append.mp hv
        · exact hlt v hold
        · rw [List.mem_singleton.mp hnew]
          exact (List.getElem?_eq_some_iff.mp htask).1
      · rw [answers_advance]
        obtain ⟨hne, hold⟩ | ⟨rfl, rfl, rfl⟩ := getElem?_advance hm
        · rw [if_neg (Ne.symm hne), List.append_nil]
          exact hafter m d p hold
        · rw [if_pos rfl]
          exact (hafter m d _ htask).snoc _

/-- A question in the history is one of the call whose task asked it. -/
lemma history_call {init : S → Prop} {ok : Pool Q A R S F C → PoolEvent F C → Prop}
    (h : (system V program init).Reachable ok s) : ∀ v ∈ s.history, (s.tasks[v.task]?).map Prod.fst = some v.call := by
  induction h with
  | start hinit =>
    obtain ⟨_, _, hhistory⟩ := hinit
    rw [hhistory]
    exact fun v hv => absurd hv List.not_mem_nil
  | @next s e t _ _ hstep ih =>
    obtain ⟨c, rfl, rfl⟩ | ⟨n, fault, c, q, next, rfl, htask, rfl⟩ := step_cases hstep
    · intro v hv
      have hold := ih v hv
      rw [start, List.getElem?_append_left]
      · exact hold
      · by_contra hlt
        rw [List.getElem?_eq_none (Nat.not_lt.mp hlt)] at hold
        cases hold
    · have hkeep : ∀ (m : ℕ) (d : C), (s.tasks[m]?).map Prod.fst = some d →
          ((s.advance V n c fault q next).tasks[m]?).map Prod.fst = some d := by
        intro m d hm
        rw [advance, List.getElem?_set]
        split_ifs with heq hlt
        · rw [← heq, htask] at hm
          exact hm
        · exact absurd (List.getElem?_eq_some_iff.mp htask).1 hlt
        · exact hm
      intro v hv
      obtain hold | hnew := List.mem_append.mp hv
      · exact hkeep v.task v.call (ih v hold)
      · rw [List.mem_singleton.mp hnew]
        exact hkeep n c (by rw [htask]; rfl)

/-- Every question that was served was asked by the program of its call. -/
lemma served {init : S → Prop} {ok : Pool Q A R S F C → PoolEvent F C → Prop}
    (h : (system V program init).Reachable ok s) : ∀ v ∈ s.history, ∃ answers next,
      (program v.call).After answers (.ask v.exchange.1 next) := by
  induction h with
  | start hinit =>
    obtain ⟨_, _, hhistory⟩ := hinit
    rw [hhistory]
    exact fun v hv => absurd hv List.not_mem_nil
  | next hs _ hstep ih =>
    obtain ⟨c, rfl, rfl⟩ | ⟨n, fault, c, q, next, rfl, htask, rfl⟩ := step_cases hstep
    · exact ih
    · intro v hv
      obtain hold | hnew := List.mem_append.mp hv
      · exact ih v hold
      · rw [List.mem_singleton.mp hnew]
        exact ⟨_, next, after hs htask⟩

section Triples

variable {init : S → Prop} {ok : Pool Q A R S F C → PoolEvent F C → Prop}
variable {asks : C → List ((q : Q) × A q) → Q → Prop} {ends : C → List ((q : Q) × A q) → R → Prop}

/-- What a task asks and how it ends is as the triple of its program says. -/
lemma task_meets (hmeets : ∀ c, (program c).Meets (asks c) (ends c) [])
    (h : (system V program init).Reachable ok s) {n : ℕ} {c : C} {p : Process Q A R}
    (hn : s.tasks[n]? = some (c, p)) : p.Meets (asks c) (ends c) (s.answers n) :=
  (hmeets c).after (after h hn)

lemma served_meets (hmeets : ∀ c, (program c).Meets (asks c) (ends c) [])
    (h : (system V program init).Reachable ok s) {v : Served Q A F C} (hv : v ∈ s.history) :
    ∃ past, asks v.call past v.exchange.1 := by
  obtain ⟨answers, next, hafter⟩ := served h v hv
  exact ⟨answers, ((hmeets v.call).after hafter).1⟩

lemma mem_history {n : ℕ} {x : (q : Q) × A q} (h : x ∈ s.answers n) :
    ∃ v ∈ s.history, v.task = n ∧ v.exchange = x := by
  obtain ⟨v, hv, hx⟩ := List.mem_map.mp h
  obtain ⟨hmem, htask⟩ := List.mem_filter.mp hv
  exact ⟨v, hmem, of_decide_eq_true htask, hx⟩

end Triples

end Steps

end Pool

end VivimOmega.Library

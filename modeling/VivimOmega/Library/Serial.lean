import VivimOmega.Library.Process

/-! Pools in which the calls with one key run one after the other, and what such calls keep of a store that they share. -/

namespace VivimOmega.Library

namespace Process

variable {Q : Type} {A : Q → Type} {R T S F : Type}

def isDone : Process Q A R → Bool
  | done _ => true
  | ask _ _ => false

/-- Whatever the others do by `rely` between its questions, a program changes the store by `guar` and ends in `post`. -/
def Safe (V : Service Q A S F) (allowed : F → Q → Prop) (rely guar : S → S → Prop) (post : R → S → Prop) :
    Process Q A R → S → Prop
  | done r, s => post r s
  | ask q next, s => ∀ t, rely s t → ∀ f, allowed f q →
      guar t (V.serve f t q).2 ∧ Safe V allowed rely guar post (next (V.serve f t q).1) (V.serve f t q).2

section Rules

variable {V : Service Q A S F} {allowed : F → Q → Prop} {rely guar : S → S → Prop} {post : R → S → Prop}
variable {post' : T → S → Prop} {p : Process Q A R} {s t : S}

lemma Safe.bind {f : R → Process Q A T} (h : p.Safe V allowed rely guar post s)
    (hf : ∀ r t, post r t → (f r).Safe V allowed rely guar post' t) : (p.bind f).Safe V allowed rely guar post' s := by
  induction p generalizing s with
  | done r => exact hf r s h
  | ask q next ih =>
    intro t ht fault hfault
    obtain ⟨hguar, hnext⟩ := h t ht fault hfault
    exact ⟨hguar, ih _ hnext⟩

lemma Safe.mono {post'' : R → S → Prop} (h : p.Safe V allowed rely guar post s) (hpost : ∀ r t, post r t → post'' r t) :
    p.Safe V allowed rely guar post'' s := by
  induction p generalizing s with
  | done r => exact hpost r s h
  | ask q next ih =>
    intro t ht fault hfault
    obtain ⟨hguar, hnext⟩ := h t ht fault hfault
    exact ⟨hguar, ih _ hnext⟩

/-- A program that has still to ask does not mind what the others do first. -/
lemma Safe.later (htrans : ∀ s t u, rely s t → rely t u → rely s u) (h : p.Safe V allowed rely guar post s)
    (hp : p.isDone = false) (hst : rely s t) : p.Safe V allowed rely guar post t := by
  cases p with
  | done r => cases hp
  | ask q next => exact fun u hu fault hfault => h u (htrans s t u hst hu) fault hfault

end Rules

end Process

namespace Pool

variable {Q : Type} {A : Q → Type} {R S F C K : Type} [DecidableEq K]

/-- A call before it with the same key is not done. -/
def waits (key : C → Option K) (s : Pool Q A R S F C) (n : ℕ) (c : C) : Bool :=
  (key c).isSome && (s.tasks.take n).any fun x => decide (key x.1 = key c) && !x.2.isDone

/-- The pools in which a call is served only when no call before it holds its key. -/
def serial (V : Service Q A S F) (program : C → Process Q A R) (key : C → Option K) (init : S → Prop) :
    System (Pool Q A R S F C) (PoolEvent F C) where
  init s := init s.store ∧ s.tasks = [] ∧ s.history = []
  step s
    | .call c => step V program s (.call c)
    | .serve n fault =>
      match s.tasks[n]? with
      | some (c, _) => if waits key s n c then none else step V program s (.serve n fault)
      | none => none

/-- How calls share a store: what each relies on and guarantees, what a call must find to start, and what is true of its
result from then on. -/
structure Discipline (V : Service Q A S F) (program : C → Process Q A R) (key : C → Option K) where
  allowed : F → Q → Prop
  together : C → C → Prop
  rely : C → S → S → Prop
  guar : C → S → S → Prop
  ready : C → S → Prop
  result : C → R → S → Prop
  refl : ∀ c s, rely c s s
  trans : ∀ c s t u, rely c s t → rely c t u → rely c s u
  symm : ∀ c d, together c d → together d c
  relies : ∀ c d s t, together c d → (key c = none ∨ key c ≠ key d) → guar d s t → rely c s t
  ready_kept : ∀ c d s t, together c d → guar d s t → ready c s → ready c t
  result_kept : ∀ c d r s t, together c d → guar d s t → result c r s → result c r t
  safe : ∀ c s, ready c s → (program c).Safe V allowed (rely c) (guar c) (result c) s

section Serial

variable {V : Service Q A S F} {program : C → Process Q A R} {key : C → Option K} {init : S → Prop}
variable {s t : Pool Q A R S F C} {e : PoolEvent F C}

lemma serial_cases (h : (serial V program key init).step s e = some t) :
    (∃ c, e = .call c ∧ t = s.start c (program c)) ∨
      ∃ n fault c q next, e = .serve n fault ∧ s.tasks[n]? = some (c, .ask q next) ∧ waits key s n c = false ∧
        t = s.advance V n c fault q next := by
  cases e with
  | call c => exact Or.inl ⟨c, rfl, (Option.some.inj h).symm⟩
  | serve n fault =>
    simp only [serial] at h
    split at h
    · rename_i c p htask
      split_ifs at h with hwaits
      obtain ⟨c', hc', _⟩ | ⟨n', fault', c', q, next, he, htask', ht⟩ := step_cases h
      · cases hc'
      · obtain ⟨rfl, rfl⟩ := PoolEvent.serve.inj he
        obtain ⟨rfl, rfl⟩ := Prod.mk.inj (Option.some.inj (htask.symm.trans htask'))
        exact Or.inr ⟨n, fault, c, q, next, rfl, htask, by simpa using hwaits, ht⟩
    · cases h

lemma waits_eq_true {n : ℕ} {c : C} : waits key s n c = true ↔
    (key c).isSome ∧ ∃ m < n, ∃ d p, s.tasks[m]? = some (d, p) ∧ key d = key c ∧ p.isDone = false := by
  rw [waits, Bool.and_eq_true, List.any_eq_true]
  refine and_congr_right fun _ => ?_
  constructor
  · rintro ⟨⟨d, p⟩, hmem, hx⟩
    obtain ⟨m, hm⟩ := List.mem_iff_getElem?.mp hmem
    rw [List.getElem?_take] at hm
    split_ifs at hm with hlt
    exact ⟨m, hlt, d, p, hm, by simpa using hx⟩
  · rintro ⟨m, hlt, d, p, hm, hkey, hdone⟩
    refine ⟨(d, p), List.mem_iff_getElem?.mpr ⟨m, ?_⟩, by simp [hkey, hdone]⟩
    rw [List.getElem?_take, if_pos hlt, hm]

lemma waits_start {n : ℕ} {c d : C} {p r : Process Q A R} (h : s.tasks[n]? = some (c, p)) :
    waits key (s.start d r) n c = waits key s n c := by
  have hn := (List.getElem?_eq_some_iff.mp h).1
  rw [waits, waits, start, List.take_append_of_le_length hn.le]

/-- Serving a task makes no other wait. -/
lemma waits_advance {n m : ℕ} {fault : F} {c d : C} {q : Q} {next : A q → Process Q A R}
    (htask : s.tasks[n]? = some (c, .ask q next)) (h : waits key (s.advance V n c fault q next) m d = true) :
    waits key s m d = true := by
  obtain ⟨hkey, l, hl, c', p', hx, hsame, hdone⟩ := waits_eq_true.mp h
  refine waits_eq_true.mpr ⟨hkey, l, hl, ?_⟩
  obtain ⟨_, hold⟩ | ⟨rfl, rfl, rfl⟩ := getElem?_advance hx
  · exact ⟨c', p', hold, hsame, hdone⟩
  · exact ⟨c', _, htask, hsame, rfl⟩

/-- Of two tasks with one key that are not done, the later waits. -/
lemma waits_of_lt {n m : ℕ} {c d : C} {p : Process Q A R} (hlt : n < m) (htask : s.tasks[n]? = some (c, p))
    (hdone : p.isDone = false) (hkey : key c = key d) (hsome : (key d).isSome) : waits key s m d = true :=
  waits_eq_true.mpr ⟨hsome, n, hlt, c, p, htask, hkey, hdone⟩

end Serial

namespace Discipline

variable {V : Service Q A S F} {program : C → Process Q A R} {key : C → Option K}
variable (D : Discipline V program key) {s t : Pool Q A R S F C}

/-- What holds of every pool that keeps to the discipline. -/
structure Sound (s : Pool Q A R S F C) : Prop where
  apart : ∀ (n m : ℕ) (c d : C) (p r : Process Q A R), n ≠ m → s.tasks[n]? = some (c, p) → s.tasks[m]? = some (d, r) →
    D.together c d
  ended : ∀ (n : ℕ) (c : C) (r : R), s.tasks[n]? = some (c, .done r) → D.result c r s.store
  waiting : ∀ (n : ℕ) (c : C) (p : Process Q A R), s.tasks[n]? = some (c, p) → p.isDone = false →
    waits key s n c = true → p = program c ∧ D.ready c s.store
  running : ∀ (n : ℕ) (c : C) (p : Process Q A R), s.tasks[n]? = some (c, p) → p.isDone = false →
    waits key s n c = false → p.Safe V D.allowed (D.rely c) (D.guar c) (D.result c) s.store

/-- A call comes when it is ready and fits those under way; a fault is one that the discipline allows. -/
def Admits (s : Pool Q A R S F C) : PoolEvent F C → Prop
  | .call c => D.ready c s.store ∧ ∀ x ∈ s.tasks, D.together x.1 c
  | .serve n fault => ∀ c q next, s.tasks[n]? = some (c, .ask q next) → D.allowed fault q

lemma sound_start {c : C} (hs : D.Sound s) (hready : D.ready c s.store) (hfits : ∀ x ∈ s.tasks, D.together x.1 c) :
    D.Sound (s.start c (program c)) := by
  have hlast : ∀ (n : ℕ) (d : C) (p : Process Q A R), s.tasks[n]? = some (d, p) → D.together d c := fun n d p h =>
    hfits (d, p) (List.mem_of_getElem? h)
  refine ⟨fun n m d d' p p' hne hn hm => ?_, fun n d r hn => ?_, fun n d p hn hdone hwaits => ?_,
    fun n d p hn hdone hwaits => ?_⟩
  · obtain hold | ⟨rfl, rfl, rfl⟩ := getElem?_start hn
    · obtain hold' | ⟨rfl, rfl, rfl⟩ := getElem?_start hm
      · exact hs.apart n m d d' p p' hne hold hold'
      · exact hlast n d p hold
    · obtain hold' | ⟨rfl, rfl, rfl⟩ := getElem?_start hm
      · exact D.symm _ _ (hlast m d' p' hold')
      · exact absurd rfl hne
  · obtain hn | ⟨rfl, rfl, hp⟩ := getElem?_start hn
    · exact hs.ended n d r hn
    · have hsafe := D.safe d s.store hready
      rw [← hp] at hsafe
      exact hsafe
  · obtain hn | ⟨rfl, rfl, rfl⟩ := getElem?_start hn
    · rw [waits_start hn] at hwaits
      exact hs.waiting n d p hn hdone hwaits
    · exact ⟨rfl, hready⟩
  · obtain hn | ⟨rfl, rfl, rfl⟩ := getElem?_start hn
    · rw [waits_start hn] at hwaits
      exact hs.running n d p hn hdone hwaits
    · exact D.safe d s.store hready

lemma sound_advance {n : ℕ} {fault : F} {c : C} {q : Q} {next : A q → Process Q A R} (hs : D.Sound s)
    (htask : s.tasks[n]? = some (c, .ask q next)) (hruns : waits key s n c = false) (hallowed : D.allowed fault q) :
    D.Sound (s.advance V n c fault q next) := by
  obtain ⟨hguar, hnext⟩ := hs.running n c _ htask rfl hruns s.store (D.refl c s.store) fault hallowed
  have hbefore : ∀ (m : ℕ) (d : C) (p : Process Q A R), m ≠ n → s.tasks[m]? = some (d, p) → D.together d c :=
    fun m d p hne hm => hs.apart m n d c p _ hne hm htask
  -- the others with the key of the served task all wait for it
  have hbehind : ∀ (m : ℕ) (d : C) (p : Process Q A R), m ≠ n → s.tasks[m]? = some (d, p) → p.isDone = false →
      key c = key d → (key d).isSome → waits key s m d = true := by
    intro m d p hne hm hdone hkey hsome
    obtain hlt | hgt := Nat.lt_or_gt_of_ne hne
    · rw [waits_of_lt hlt hm hdone hkey.symm (hkey ▸ hsome)] at hruns
      cases hruns
    · exact waits_of_lt hgt htask rfl hkey hsome
  refine ⟨fun m m' d d' p p' hne hm hm' => ?_, fun m d r hm => ?_, fun m d p hm hdone hwaits => ?_,
    fun m d p hm hdone hwaits => ?_⟩
  · obtain ⟨_, hold⟩ | ⟨rfl, rfl, rfl⟩ := getElem?_advance hm
    · obtain ⟨_, hold'⟩ | ⟨rfl, rfl, rfl⟩ := getElem?_advance hm'
      · exact hs.apart m m' d d' p p' hne hold hold'
      · exact hs.apart m m' d d' p _ hne hold htask
    · obtain ⟨_, hold'⟩ | ⟨rfl, rfl, rfl⟩ := getElem?_advance hm'
      · exact hs.apart m m' d d' _ p' hne htask hold'
      · exact absurd rfl hne
  · obtain ⟨hmn, hm⟩ | ⟨rfl, rfl, hp⟩ := getElem?_advance hm
    · exact D.result_kept d c r _ _ (hbefore m d _ hmn hm) hguar (hs.ended m d r hm)
    · rw [← hp] at hnext
      exact hnext
  · obtain ⟨hmn, hm⟩ | ⟨rfl, rfl, rfl⟩ := getElem?_advance hm
    · obtain ⟨hp, hready⟩ := hs.waiting m d p hm hdone (waits_advance htask hwaits)
      exact ⟨hp, D.ready_kept d c _ _ (hbefore m d p hmn hm) hguar hready⟩
    · rw [waits_advance htask hwaits] at hruns
      cases hruns
  · obtain ⟨hmn, hm⟩ | ⟨rfl, rfl, rfl⟩ := getElem?_advance hm
    · cases hwas : waits key s m d with
      | false =>
        have hother : key d = none ∨ key d ≠ key c := by
          by_contra hnot
          obtain ⟨hsome, hkey⟩ := not_or.mp hnot
          rw [hbehind m d p hmn hm hdone (not_not.mp hkey).symm (Option.isSome_iff_ne_none.mpr hsome)] at hwas
          cases hwas
        exact (hs.running m d p hm hdone hwas).later (D.trans d) hdone (D.relies d c _ _ (hbefore m d p hmn hm) hother hguar)
      | true =>
        -- its turn has come
        obtain ⟨rfl, hready⟩ := hs.waiting m d p hm hdone hwas
        exact D.safe d _ (D.ready_kept d c _ _ (hbefore m d _ hmn hm) hguar hready)
    · exact hnext

/-- Calls that keep to a discipline are sound in every interleaving. -/
lemma sound {init : S → Prop} (h : (serial V program key init).Reachable D.Admits s) : D.Sound s := by
  refine h.invariant (P := D.Sound) ?_ ?_
  · rintro s ⟨_, htasks, _⟩
    have hnone : ∀ (n : ℕ) (x : C × Process Q A R), s.tasks[n]? ≠ some x := by
      intro n x
      rw [htasks]
      simp
    exact ⟨fun n m c d p r _ hn => absurd hn (hnone n _), fun n c r hn => absurd hn (hnone n _),
      fun n c p hn => absurd hn (hnone n _), fun n c p hn => absurd hn (hnone n _)⟩
  · intro s e t _ hs hadmits hstep
    obtain ⟨c, rfl, rfl⟩ | ⟨n, fault, c, q, next, rfl, htask, hruns, rfl⟩ := serial_cases hstep
    · exact D.sound_start hs hadmits.1 hadmits.2
    · exact D.sound_advance hs htask hruns (hadmits c q next htask)

/-- Every change of the store is one that some call guarantees. -/
lemma sound_step {init : S → Prop} {e : PoolEvent F C} (hs : D.Sound s) (hadmits : D.Admits s e)
    (hstep : (serial V program key init).step s e = some t) : t.store = s.store ∨ ∃ c, D.guar c s.store t.store := by
  obtain ⟨c, rfl, rfl⟩ | ⟨n, fault, c, q, next, rfl, htask, hruns, rfl⟩ := serial_cases hstep
  · exact Or.inl rfl
  · exact Or.inr ⟨c, (hs.running n c _ htask rfl hruns s.store (D.refl c s.store) fault (hadmits c q next htask)).1⟩

end Discipline

end Pool

end VivimOmega.Library

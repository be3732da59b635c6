import VivimOmega.Broker.Invariant

/-! How the calls whose race is decided go on, each on its own lane. -/

namespace VivimOmega.Broker

open Library

variable {pools : Pools} {s t u : State} {l : ℕ}

/-- A call has its result and is still to go on. -/
def Due (s : State) (id : ℕ) : Prop := Open s id ∧ (s.jobs id).result ≠ none

def Quiet (s : State) : Prop := ∀ id, ¬ Due s id

section Resuming

variable {id i : ℕ}

lemma comeBack_jobs (s : State) (id i : ℕ) :
    (s.comeBack id).jobs i = if i = id then { s.jobs i with resumed := true } else s.jobs i := by
  by_cases hi : i = id
  · rw [if_pos hi, hi]
    exact Function.update_self ..
  · rw [if_neg hi]
    exact Function.update_of_ne hi ..

/-- A due call comes back: its lane is free again after a clean answer, and retired otherwise. -/
lemma resume_cases (s : State) (id : ℕ) : ¬ Due s id ∧ s.resume id = s ∨ Due s id ∧
    (s.resume id = (s.comeBack id).retire (s.jobs id).lane ∨
      (∃ c, (s.jobs id).result = some c ∧ State.isOk c = true) ∧ (s.lanes (s.jobs id).lane).malformed = 0 ∧
        s.resume id =
          (s.comeBack id).setLane (s.jobs id).lane { s.lanes (s.jobs id).lane with busy := false }) := by
  rw [State.resume.eq_def]
  split
  · rename_i c hresult hopen
    refine Or.inr ⟨⟨hopen, by rw [hresult]; exact Option.some_ne_none c⟩, ?_⟩
    dsimp only
    split_ifs with h
    · exact Or.inl rfl
    · simp only [Bool.or_eq_true, Bool.not_eq_true', decide_eq_true_eq, not_or, Bool.not_eq_false, not_lt,
        Nat.le_zero] at h
      exact Or.inr ⟨⟨c, hresult, h.1⟩, h.2, rfl⟩
  · rename_i hdone
    refine Or.inl ⟨?_, rfl⟩
    rintro ⟨hopen, hresult⟩
    obtain ⟨c, hc⟩ := Option.ne_none_iff_exists'.mp hresult
    exact hdone c hc hopen

lemma resume_jobs (s : State) (id i : ℕ) [Decidable (Due s id)] : (s.resume id).jobs i =
    if i = id ∧ Due s id then { s.jobs i with resumed := true } else s.jobs i := by
  obtain ⟨hdue, heq⟩ | ⟨hdue, heq | ⟨_, _, heq⟩⟩ := resume_cases s id
  · rw [heq, if_neg fun h => hdue h.2]
  · simp only [heq, hdue, and_true]
    exact comeBack_jobs s id i
  · simp only [heq, hdue, and_true]
    exact comeBack_jobs s id i

lemma resume_lanes (s : State) (id : ℕ) {l : ℕ} (h : ¬ (Due s id ∧ (s.jobs id).lane = l)) :
    (s.resume id).lanes l = s.lanes l := by
  obtain ⟨_, heq⟩ | ⟨hdue, heq⟩ := resume_cases s id
  · rw [heq]
  · have hne : l ≠ (s.jobs id).lane := fun hl => h ⟨hdue, hl.symm⟩
    obtain heq | ⟨_, _, heq⟩ := heq
    · rw [heq]
      exact Function.update_of_ne hne ..
    · rw [heq]
      exact Function.update_of_ne hne ..

lemma resume_members (s : State) (id : ℕ) (p : String) : ((s.resume id).members p).Sublist (s.members p) := by
  obtain ⟨_, heq⟩ | ⟨_, heq | ⟨_, _, heq⟩⟩ := resume_cases s id
  · rw [heq]
  · rw [heq]
    exact erase_members s _ _ p
  · rw [heq]
    exact List.Sublist.refl _

lemma due_resume : Due (s.resume id) i ↔ Due s i ∧ i ≠ id := by
  classical
  rw [Due, Open, resume_jobs]
  split_ifs with h
  · obtain ⟨rfl, _⟩ := h
    simp
  · constructor
    · intro hdue
      exact ⟨hdue, fun heq => h ⟨heq, heq ▸ hdue⟩⟩
    · exact fun hdue => hdue.1

lemma due_resumes (ids : List ℕ) : Due (ids.foldl State.resume s) i ↔ Due s i ∧ i ∉ ids := by
  induction ids generalizing s with
  | nil => simp
  | cons id rest ih =>
    rw [List.foldl_cons, ih, due_resume, List.mem_cons, not_or, and_assoc]

lemma resumes_lanes {ids : List ℕ} (h : ∀ id, Due s id → (s.jobs id).lane ≠ l) :
    (ids.foldl State.resume s).lanes l = s.lanes l := by
  classical
  induction ids generalizing s with
  | nil => rfl
  | cons id rest ih =>
    rw [List.foldl_cons, ih, resume_lanes _ _ fun hdue => h id hdue.1 hdue.2]
    intro i hi
    obtain ⟨hdue, hne⟩ := due_resume.mp hi
    rw [resume_jobs, if_neg fun h => hne h.1]
    exact h i hdue

lemma resumes_members (ids : List ℕ) (p : String) : ((ids.foldl State.resume s).members p).Sublist (s.members p) := by
  induction ids generalizing s with
  | nil => exact List.Sublist.refl _
  | cons id rest ih => exact ih.trans (resume_members s id p)

/-- Where a call on the lane was due, the lane is out of its pool or free after a clean answer. -/
lemma resumes_due (h : Core pools s) {ids : List ℕ} (hin : id ∈ ids) (hdue : Due s id)
    (hlane : (s.jobs id).lane = l) : (∀ p, l ∉ (ids.foldl State.resume s).members p) ∨
      (∃ c, (s.jobs id).result = some c ∧ State.isOk c = true) ∧ (s.lanes l).malformed = 0 ∧
        (ids.foldl State.resume s).lanes l = { s.lanes l with busy := false } := by
  classical
  induction ids generalizing s with
  | nil => exact absurd hin List.not_mem_nil
  | cons i rest ih =>
    by_cases hi : i = id
    · subst hi
      have halone : ∀ j, Due (s.resume i) j → ((s.resume i).jobs j).lane ≠ l := by
        intro j hj
        obtain ⟨hjdue, hne⟩ := due_resume.mp hj
        rw [resume_jobs, if_neg fun h => hne h.1]
        exact fun heq => hne (h.single j i hjdue.1 hdue.1 (heq.trans hlane.symm))
      rw [List.foldl_cons, resumes_lanes halone]
      obtain ⟨hnot, _⟩ | ⟨_, heq | ⟨hok, hclean, heq⟩⟩ := resume_cases s i
      · exact absurd hdue hnot
      · refine Or.inl fun p hp => ?_
        have hp' := (resumes_members rest p).subset hp
        rw [heq] at hp'
        exact h.retired l p (hlane ▸ hp')
      · rw [hlane] at hclean heq
        refine Or.inr ⟨hok, hclean, ?_⟩
        rw [heq]
        exact Function.update_self ..
    · have hne : id ≠ i := fun heq => hi heq.symm
      have hjob : (s.resume i).jobs id = s.jobs id := by rw [resume_jobs, if_neg fun h => hne h.1]
      have hlanes : (s.resume i).lanes l = s.lanes l := by
        refine resume_lanes _ _ ?_
        rintro ⟨hidue, hil⟩
        exact hi (h.single i id hidue.1 hdue.1 (hil.trans hlane.symm))
      have hrest := ih (h.resume i) ((List.mem_cons.mp hin).resolve_left hne) (due_resume.mpr ⟨hdue, hne⟩)
        (by rw [hjob, hlane])
      rwa [hjob, hlanes] at hrest

end Resuming

section Draining

variable {id : ℕ}

lemma quiet_drain (h : Core pools s) : Quiet s.drain := by
  intro id hdue
  obtain ⟨hold, hnot⟩ := (due_resumes _).mp hdue
  exact hnot (List.mem_range.mpr (h.carried id hold.1).1)

lemma drain_members (s : State) (p : String) : (s.drain.members p).Sublist (s.members p) := resumes_members _ p

/-- What a lane is after the calls have gone on: as it was, unless a call on it was due. -/
lemma drain_lane (h : Core pools s) (l : ℕ) : (∀ id, Due s id → (s.jobs id).lane ≠ l) ∧ s.drain.lanes l = s.lanes l ∨
    ∃ id, Due s id ∧ (s.jobs id).lane = l ∧ ((∀ p, l ∉ s.drain.members p) ∨
      (∃ c, (s.jobs id).result = some c ∧ State.isOk c = true) ∧ (s.lanes l).malformed = 0 ∧
        s.drain.lanes l = { s.lanes l with busy := false }) := by
  by_cases hall : ∀ id, Due s id → (s.jobs id).lane ≠ l
  · exact Or.inl ⟨hall, resumes_lanes hall⟩
  · push Not at hall
    obtain ⟨id, hdue, hlane⟩ := hall
    exact Or.inr ⟨id, hdue, hlane, resumes_due h (List.mem_range.mpr (h.carried id hdue.1).1) hdue hlane⟩

lemma resumes_job (ids : List ℕ) (id : ℕ) : ((ids.foldl State.resume s).jobs id).lane = (s.jobs id).lane ∧
    ((ids.foldl State.resume s).jobs id).pool = (s.jobs id).pool ∧
    ((ids.foldl State.resume s).jobs id).written = (s.jobs id).written ∧
    ((ids.foldl State.resume s).jobs id).result = (s.jobs id).result ∧
    ((ids.foldl State.resume s).jobs id).expired = (s.jobs id).expired := by
  classical
  induction ids generalizing s with
  | nil => exact ⟨rfl, rfl, rfl, rfl, rfl⟩
  | cons i rest ih =>
    have hjob := resume_jobs s i id
    have hrest := ih (s := s.resume i)
    rw [hjob] at hrest
    split_ifs at hrest
    · exact hrest
    · exact hrest

lemma resumes_resumed (ids : List ℕ) (id : ℕ) (h : ((ids.foldl State.resume s).jobs id).resumed = true) :
    (s.jobs id).resumed = true ∨ (s.jobs id).result ≠ none := by
  classical
  induction ids generalizing s with
  | nil => exact Or.inl h
  | cons i rest ih =>
    obtain hmark | hresult := ih h
    · rw [resume_jobs] at hmark
      split_ifs at hmark with hi
      · obtain ⟨rfl, hdue⟩ := hi
        exact Or.inr hdue.2
      · exact Or.inl hmark
    · rw [resume_jobs] at hresult
      split_ifs at hresult
      · exact Or.inr hresult
      · exact Or.inr hresult

lemma resumes_exited (ids : List ℕ) (l : ℕ) : ((ids.foldl State.resume s).lanes l).exited = (s.lanes l).exited := by
  induction ids generalizing s with
  | nil => rfl
  | cons i rest ih =>
    refine ih.trans ?_
    obtain ⟨_, heq⟩ | ⟨_, heq | ⟨_, _, heq⟩⟩ := resume_cases s i
    · rw [heq]
    · simp only [heq, State.retire, lanes_setLane]
      split_ifs with hl
      · rw [hl]
        rfl
      · rfl
    · simp only [heq, lanes_setLane]
      split_ifs with hl
      · rw [hl]
      · rfl

lemma resumes_counts (ids : List ℕ) : (ids.foldl State.resume s).nextId = s.nextId ∧
    (ids.foldl State.resume s).spawned = s.spawned ∧ (ids.foldl State.resume s).shutDown = s.shutDown := by
  induction ids generalizing s with
  | nil => exact ⟨rfl, rfl, rfl⟩
  | cons i rest ih =>
    rw [List.foldl_cons]
    obtain ⟨hnext, hspawned, hshut⟩ := ih (s := s.resume i)
    obtain ⟨_, heq⟩ | ⟨_, heq | ⟨_, _, heq⟩⟩ := resume_cases s i
    · rw [heq] at hnext hspawned hshut ⊢
      exact ⟨hnext, hspawned, hshut⟩
    · rw [heq] at hnext hspawned hshut ⊢
      exact ⟨hnext, hspawned, hshut⟩
    · rw [heq] at hnext hspawned hshut ⊢
      exact ⟨hnext, hspawned, hshut⟩

end Draining

end VivimOmega.Broker

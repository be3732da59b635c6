import VivimOmega.Library.Transition

/-! The poll of the world's version, which broadcasts the snapshot when the version has changed. -/

namespace VivimOmega.Console

open Library

section Poll

/-- Where a tick waits: for the light snapshot, or for the full one after it marked the version that it had seen. A read
that was served holds the world of that moment until the tick takes it up; the full reads are numbered as they are
served. -/
inductive Phase (World : Type)
  | light
  | lightServed (v : ℕ)
  | full (seen : ℕ)
  | fullServed (seen : ℕ) (world : World) (number : ℕ)

structure Tick (World : Type) where
  began : ℕ
  phase : Phase World

structure WorldPoll (World : Type) where
  world : World
  changes : ℕ
  answers : ℕ
  lastV : ℤ
  stopped : Bool
  ticks : List (Tick World)
  emitted : List World
  first : Option ℕ
  clean : Bool

inductive PollEvent (World : Type)
  | changed (world : World)
  | beat (connected : Bool)
  | served (i : ℕ)
  | failed (i : ℕ)
  | resumed (i : ℕ)
  | stopped

variable {World : Type} (version : World → ℕ)

/-- The tick is through with all its reads; it is clean when it began after the last change. -/
def WorldPoll.ended (s : WorldPoll World) (i began : ℕ) : WorldPoll World :=
  { s with
    ticks := s.ticks.eraseIdx i
    clean := s.clean || began == s.changes }

def WorldPoll.moved (s : WorldPoll World) (i began : ℕ) (phase : Phase World) : WorldPoll World :=
  { s with ticks := s.ticks.set i ⟨began, phase⟩ }

def WorldPoll.step (s : WorldPoll World) : PollEvent World → Option (WorldPoll World)
  | .changed world => some { s with world := world, changes := s.changes + 1, clean := false }
  | .stopped => some { s with stopped := true }
  | .beat connected =>
    if s.stopped || !connected then some s else some { s with ticks := s.ticks ++ [⟨s.changes, .light⟩] }
  | .served i =>
    match s.ticks[i]? with
    | some ⟨began, .light⟩ => some (s.moved i began (.lightServed (version s.world)))
    | some ⟨began, .full seen⟩ =>
      some { s.moved i began (.fullServed seen s.world s.answers) with answers := s.answers + 1 }
    | _ => none
  | .failed i =>
    match s.ticks[i]? with
    | some ⟨_, .light⟩ => some { s with ticks := s.ticks.eraseIdx i }
    | some ⟨_, .full _⟩ => some { s with ticks := s.ticks.eraseIdx i }
    | _ => none
  | .resumed i =>
    match s.ticks[i]? with
    | some ⟨began, .lightServed v⟩ =>
      if (v : ℤ) = s.lastV then some (s.ended i began)
      -- the mark is set before the full snapshot is there
      else if 0 ≤ s.lastV then some { s.moved i began (.full v) with lastV := v }
      else some { s.ended i began with lastV := v, first := some v }
    | some ⟨began, .fullServed _ world _⟩ => some { s.ended i began with emitted := s.emitted ++ [world] }
    | _ => none

/-- `startWorldPoll`, with the vault's changes, its answers and failures, and the sockets as they come. -/
def startWorldPoll : System (WorldPoll World) (PollEvent World) where
  init s := ∃ world, s = ⟨world, 0, 0, -1, false, [], [], none, false⟩
  step s e := s.step version e

end Poll

section Law

variable {World : Type} (version : World → ℕ)

/-- No tick is in progress, and one that began after the last change was through with all its reads. -/
def WorldPoll.Quiescent (s : WorldPoll World) : Prop := s.ticks = [] ∧ s.clean = true

def WorldPoll.HasMoved (s : WorldPoll World) : Prop := ∃ v ∈ s.first, version s.world ≠ v

structure WorldPoll.Converged (s : WorldPoll World) : Prop where
  forward : (s.emitted.map version).Pairwise (· ≤ ·)
  last : s.Quiescent → s.HasMoved version → s.emitted.getLast?.map version = some (version s.world)

def Phase.awaitsFull : Phase World → Bool
  | .full _ => true
  | _ => false

def Phase.number : Phase World → Option ℕ
  | .fullServed _ _ number => some number
  | _ => none

/-- The version does not go back, no full snapshot fails, and the full ones are taken up as they were served. -/
def Orderly (s : WorldPoll World) : PollEvent World → Prop
  | .changed world => version s.world ≤ version world
  | .failed i => ∀ tick ∈ s.ticks[i]?, tick.phase.awaitsFull = false
  | .resumed i =>
    ∀ tick ∈ s.ticks[i]?, ∀ number ∈ tick.phase.number, ∀ other ∈ s.ticks, ∀ n ∈ other.phase.number, number ≤ n
  | _ => True

instance decidableOrderly (s : WorldPoll World) : ∀ e, Decidable (Orderly version s e)
  | .changed world => inferInstanceAs (Decidable (version s.world ≤ version world))
  | .failed i => inferInstanceAs (Decidable (∀ tick ∈ s.ticks[i]?, tick.phase.awaitsFull = false))
  | .resumed i =>
    inferInstanceAs (Decidable (∀ tick ∈ s.ticks[i]?, ∀ number ∈ tick.phase.number, ∀ other ∈ s.ticks,
      ∀ n ∈ other.phase.number, number ≤ n))
  | .beat _ => isTrue trivial
  | .served _ => isTrue trivial
  | .stopped => isTrue trivial

end Law

section Invariant

variable {World : Type} {version : World → ℕ} {s t : WorldPoll World} {i began : ℕ} {phase next : Phase World}

/-- The version that a tick has marked and is still to show. -/
def Phase.marked : Phase World → Option ℕ
  | .full seen => some seen
  | .fullServed seen _ _ => some seen
  | _ => none

def Phase.Within (version : World → ℕ) (current : ℕ) : Phase World → Prop
  | .light => True
  | .lightServed v => v ≤ current
  | .full seen => seen ≤ current
  | .fullServed seen world _ => seen ≤ version world ∧ version world ≤ current

/-- What was read since the last change is current. -/
def Phase.Fresh (version : World → ℕ) (current : ℕ) : Phase World → Prop
  | .lightServed v => v = current
  | .fullServed _ world _ => version world = current
  | _ => True

/-- A version is accounted for when it was the first, when a snapshot as new was shown, or when a tick is to show one. -/
def WorldPoll.Accounts (version : World → ℕ) (s : WorldPoll World) (v : ℕ) : Prop :=
  s.first = some v ∨ (∃ world ∈ s.emitted, v ≤ version world) ∨ ∃ tick ∈ s.ticks, tick.phase.marked = some v

structure Sound (version : World → ℕ) (s : WorldPoll World) : Prop where
  within : ∀ tick ∈ s.ticks, tick.phase.Within version (version s.world)
  fresh : ∀ tick ∈ s.ticks, tick.began = s.changes → tick.phase.Fresh version (version s.world)
  began : ∀ tick ∈ s.ticks, tick.began ≤ s.changes
  numbered : ∀ tick ∈ s.ticks, ∀ seen world n, tick.phase = .fullServed seen world n →
    n < s.answers ∧ (∀ shown ∈ s.emitted, version shown ≤ version world) ∧
      ∀ other ∈ s.ticks, ∀ seen' world' n', other.phase = .fullServed seen' world' n' → n ≤ n' →
        version world ≤ version world'
  shown : ∀ world ∈ s.emitted, version world ≤ version s.world
  forward : (s.emitted.map version).Pairwise (· ≤ ·)
  unmarked : s.lastV < 0 → s.first = none
  mark : ∀ v : ℕ, s.lastV = v → s.Accounts version v
  clean : s.clean = true → s.Accounts version (version s.world)

lemma mem_eraseIdx_of_ne {l : List (Tick World)} {x a : Tick World} (ha : l[i]? = some a) (hx : x ∈ l) (hne : x ≠ a) :
    x ∈ l.eraseIdx i := by
  rw [List.mem_eraseIdx_iff_getElem?]
  obtain ⟨j, hj⟩ := List.mem_iff_getElem?.mp hx
  refine ⟨j, ?_, hj⟩
  rintro rfl
  exact hne (Option.some.inj (hj.symm.trans ha))

lemma mem_set_of_ne {l : List (Tick World)} {x a b : Tick World} (ha : l[i]? = some a) (hx : x ∈ l) (hne : x ≠ a) :
    x ∈ l.set i b := by
  obtain ⟨j, hj⟩ := List.mem_iff_getElem?.mp hx
  have hij : i ≠ j := by
    rintro rfl
    exact hne (Option.some.inj (hj.symm.trans ha))
  exact List.mem_iff_getElem?.mpr ⟨j, by rw [List.getElem?_set_ne hij]; exact hj⟩

lemma mem_set_self {l : List (Tick World)} {a b : Tick World} (ha : l[i]? = some a) : b ∈ l.set i b := by
  obtain ⟨hlt, _⟩ := List.getElem?_eq_some_iff.mp ha
  exact List.mem_set hlt b

lemma WorldPoll.Accounts.moved {v : ℕ} (h : s.Accounts version v) (hi : s.ticks[i]? = some ⟨began, phase⟩)
    (hmark : ∀ v, phase.marked = some v → next.marked = some v) : (s.moved i began next).Accounts version v := by
  obtain hfirst | hshown | ⟨tick, hmem, htick⟩ := h
  · exact Or.inl hfirst
  · exact Or.inr (Or.inl hshown)
  · refine Or.inr (Or.inr ?_)
    by_cases heq : tick = ⟨began, phase⟩
    · subst heq
      exact ⟨⟨began, next⟩, mem_set_self hi, hmark v htick⟩
    · exact ⟨tick, mem_set_of_ne hi hmem heq, htick⟩

lemma WorldPoll.Accounts.erased {v : ℕ} (h : s.Accounts version v) (hi : s.ticks[i]? = some ⟨began, phase⟩)
    (hmark : phase.marked = none) : ({ s with ticks := s.ticks.eraseIdx i } : WorldPoll World).Accounts version v := by
  obtain hfirst | hshown | ⟨tick, hmem, htick⟩ := h
  · exact Or.inl hfirst
  · exact Or.inr (Or.inl hshown)
  · refine Or.inr (Or.inr ⟨tick, mem_eraseIdx_of_ne hi hmem ?_, htick⟩)
    rintro rfl
    rw [hmark] at htick
    cases htick

lemma Phase.Within.mono {current later : ℕ} (h : phase.Within version current) (hle : current ≤ later) :
    phase.Within version later := by
  cases phase with
  | light => trivial
  | lightServed v => exact le_trans h hle
  | full seen => exact le_trans h hle
  | fullServed seen world n => exact ⟨h.1, le_trans h.2 hle⟩

lemma sound_init (world : World) : Sound version ⟨world, 0, 0, -1, false, [], [], none, false⟩ where
  within := by simp
  fresh := by simp
  began := by simp
  numbered := by simp
  shown := by simp
  forward := List.Pairwise.nil
  unmarked _ := rfl
  mark v hv := by
    have hneg : (-1 : ℤ) = v := hv
    omega
  clean hclean := by cases hclean

lemma Sound.changed (h : Sound version s) {world : World} (hle : version s.world ≤ version world) :
    Sound version { s with world := world, changes := s.changes + 1, clean := false } where
  within tick hmem := (h.within tick hmem).mono hle
  fresh tick hmem heq := by
    have hbegan := h.began tick hmem
    have heq' : tick.began = s.changes + 1 := heq
    omega
  began tick hmem := le_trans (h.began tick hmem) (Nat.le_succ _)
  numbered := h.numbered
  shown w hw := le_trans (h.shown w hw) hle
  forward := h.forward
  unmarked := h.unmarked
  mark := h.mark
  clean hclean := by cases hclean

/-- A tick that is not served a full snapshot takes a place in the list. -/
lemma Sound.placed (h : Sound version s) {ticks : List (Tick World)} (tick : Tick World)
    (hticks : ∀ x ∈ ticks, x ∈ s.ticks ∨ x = tick) (hwithin : tick.phase.Within version (version s.world))
    (hfresh : tick.began = s.changes → tick.phase.Fresh version (version s.world)) (hbegan : tick.began ≤ s.changes)
    (hnumber : tick.phase.number = none)
    (hkeep : ∀ v, s.Accounts version v → ({ s with ticks := ticks } : WorldPoll World).Accounts version v) :
    Sound version { s with ticks := ticks } := by
  have hserved : ∀ x ∈ ticks, ∀ seen world n, x.phase = .fullServed seen world n → x ∈ s.ticks := by
    intro x hx seen world n hphase
    obtain hold | rfl := hticks x hx
    · exact hold
    · rw [hphase] at hnumber
      cases hnumber
  exact {
    within := fun x hx => (hticks x hx).elim (h.within x) fun heq => heq ▸ hwithin
    fresh := fun x hx => (hticks x hx).elim (h.fresh x) fun heq => heq ▸ hfresh
    began := fun x hx => (hticks x hx).elim (h.began x) fun heq => heq ▸ hbegan
    numbered := by
      intro x hx seen world n hphase
      obtain ⟨hlt, hshown, hothers⟩ := h.numbered x (hserved x hx seen world n hphase) seen world n hphase
      exact ⟨hlt, hshown, fun other ho seen' world' n' hp =>
        hothers other (hserved other ho seen' world' n' hp) seen' world' n' hp⟩
    shown := h.shown
    forward := h.forward
    unmarked := h.unmarked
    mark := fun v hv => hkeep v (h.mark v hv)
    clean := fun hclean => hkeep _ (h.clean hclean) }

lemma Sound.moved (h : Sound version s) (hi : s.ticks[i]? = some ⟨began, phase⟩)
    (hwithin : next.Within version (version s.world)) (hfresh : began = s.changes → next.Fresh version (version s.world))
    (hnumber : next.number = none) (hmark : ∀ v, phase.marked = some v → next.marked = some v) :
    Sound version (s.moved i began next) :=
  h.placed ⟨began, next⟩ (fun _ hx => List.mem_or_eq_of_mem_set hx) hwithin hfresh
    (h.began ⟨began, phase⟩ (List.mem_of_getElem? hi)) hnumber fun _ hv => hv.moved hi hmark

lemma Sound.erased (h : Sound version s)
    (hkeep : ∀ v, s.Accounts version v → ({ s with ticks := s.ticks.eraseIdx i } : WorldPoll World).Accounts version v) :
    Sound version { s with ticks := s.ticks.eraseIdx i } :=
  h.placed ⟨0, .light⟩ (fun _ hx => Or.inl (List.mem_of_mem_eraseIdx hx)) trivial (fun _ => trivial)
    (Nat.zero_le _) rfl hkeep

lemma Sound.beat (h : Sound version s) : Sound version { s with ticks := s.ticks ++ [⟨s.changes, .light⟩] } := by
  refine h.placed ⟨s.changes, .light⟩ (fun x hx => ?_) trivial (fun _ => trivial) le_rfl rfl fun v hv => ?_
  · exact (List.mem_append.mp hx).imp_right List.mem_singleton.mp
  · obtain hfirst | hshown | ⟨tick, hmem, htick⟩ := hv
    · exact Or.inl hfirst
    · exact Or.inr (Or.inl hshown)
    · exact Or.inr (Or.inr ⟨tick, List.mem_append_left _ hmem, htick⟩)

/-- The world that is read now is as new as what was read and shown before. -/
lemma Sound.served_full (h : Sound version s) {seen : ℕ} (hi : s.ticks[i]? = some ⟨began, .full seen⟩) :
    Sound version { s.moved i began (.fullServed seen s.world s.answers) with answers := s.answers + 1 } := by
  have hmem := List.mem_of_getElem? hi
  have hkeep : ∀ v, s.Accounts version v →
      (s.moved i began (.fullServed seen s.world s.answers)).Accounts version v :=
    fun v hv => hv.moved hi fun _ hmark => hmark
  have hwithin : seen ≤ version s.world := h.within _ hmem
  exact {
    within := fun x hx => (List.mem_or_eq_of_mem_set hx).elim (h.within x) fun heq => heq ▸ ⟨hwithin, le_rfl⟩
    fresh := fun x hx => (List.mem_or_eq_of_mem_set hx).elim (h.fresh x) fun heq => heq ▸ fun _ => rfl
    began := fun x hx => (List.mem_or_eq_of_mem_set hx).elim (h.began x) fun heq => heq ▸ h.began ⟨began, .full seen⟩ hmem
    numbered := by
      intro x hx seen' world n hphase
      obtain hold | rfl := List.mem_or_eq_of_mem_set hx
      · obtain ⟨hlt, hshown, hothers⟩ := h.numbered x hold seen' world n hphase
        refine ⟨Nat.lt_succ_of_lt hlt, hshown, fun other ho seen'' world'' n'' hp hle => ?_⟩
        obtain hother | rfl := List.mem_or_eq_of_mem_set ho
        · exact hothers other hother seen'' world'' n'' hp hle
        · cases hp
          have hcurrent := h.within x hold
          rw [hphase] at hcurrent
          exact hcurrent.2
      · cases hphase
        refine ⟨Nat.lt_succ_self _, h.shown, fun other ho seen'' world'' n'' hp hle => ?_⟩
        obtain hother | rfl := List.mem_or_eq_of_mem_set ho
        · have hlt := (h.numbered other hother seen'' world'' n'' hp).1
          omega
        · cases hp
          exact le_rfl
    shown := h.shown
    forward := h.forward
    unmarked := h.unmarked
    mark := fun v hv => hkeep v (h.mark v hv)
    clean := fun hclean => hkeep _ (h.clean hclean) }

lemma Sound.cleaned (h : Sound version s) (hread : began = s.changes → s.Accounts version (version s.world)) :
    Sound version { s with clean := s.clean || began == s.changes } where
  within := h.within
  fresh := h.fresh
  began := h.began
  numbered := h.numbered
  shown := h.shown
  forward := h.forward
  unmarked := h.unmarked
  mark := h.mark
  clean hclean := by
    obtain hold | hnow := (Bool.or_eq_true _ _).mp hclean
    · exact h.clean hold
    · exact hread (beq_iff_eq.mp hnow)

lemma Sound.marked (h : Sound version s) {v : ℕ} (hv : s.Accounts version v) : Sound version { s with lastV := v } where
  within := h.within
  fresh := h.fresh
  began := h.began
  numbered := h.numbered
  shown := h.shown
  forward := h.forward
  unmarked hneg := by
    have hlt : (v : ℤ) < 0 := hneg
    omega
  mark w hw := by
    obtain rfl : v = w := Int.ofNat.inj hw
    exact hv
  clean := h.clean

lemma Sound.firstRead (h : Sound version s) (hneg : s.lastV < 0) (v : ℕ) :
    Sound version { s with lastV := v, first := some v } := by
  have hkeep : ∀ x, s.Accounts version x →
      ({ s with lastV := v, first := some v } : WorldPoll World).Accounts version x := by
    intro x hx
    obtain hfirst | hrest := hx
    · rw [h.unmarked hneg] at hfirst
      cases hfirst
    · exact Or.inr hrest
  exact {
    within := h.within
    fresh := h.fresh
    began := h.began
    numbered := h.numbered
    shown := h.shown
    forward := h.forward
    unmarked := fun hlt => by
      have hlt' : (v : ℤ) < 0 := hlt
      omega
    mark := fun w hw => by
      obtain rfl : v = w := Int.ofNat.inj hw
      exact Or.inl rfl
    clean := fun hclean => hkeep _ (h.clean hclean) }

/-- The snapshot that was served first among those in flight is shown. -/
lemma Sound.emits (h : Sound version s) {seen n : ℕ} {world : World}
    (hi : s.ticks[i]? = some ⟨began, .fullServed seen world n⟩)
    (hnext : ∀ other ∈ s.ticks, ∀ m ∈ other.phase.number, n ≤ m) :
    Sound version { s with emitted := s.emitted ++ [world] } := by
  have hmem := List.mem_of_getElem? hi
  obtain ⟨hlt, hshown, hothers⟩ := h.numbered _ hmem seen world n rfl
  have hkeep : ∀ v, s.Accounts version v →
      ({ s with emitted := s.emitted ++ [world] } : WorldPoll World).Accounts version v := by
    rintro v (hfirst | ⟨shown, hs, hv⟩ | htick)
    · exact Or.inl hfirst
    · exact Or.inr (Or.inl ⟨shown, List.mem_append_left _ hs, hv⟩)
    · exact Or.inr (Or.inr htick)
  exact {
    within := h.within
    fresh := h.fresh
    began := h.began
    numbered := by
      intro x hx seen' world' n' hphase
      obtain ⟨hlt', hshown', hothers'⟩ := h.numbered x hx seen' world' n' hphase
      refine ⟨hlt', List.forall_mem_append.mpr ⟨hshown', List.forall_mem_singleton.mpr ?_⟩, hothers'⟩
      refine hothers x hx seen' world' n' hphase (hnext x hx n' ?_)
      rw [hphase]
      rfl
    shown := List.forall_mem_append.mpr ⟨h.shown, List.forall_mem_singleton.mpr (h.within _ hmem).2⟩
    forward := by
      rw [List.map_append, List.pairwise_append]
      refine ⟨h.forward, List.pairwise_singleton _ _, fun a ha b hb => ?_⟩
      obtain ⟨shown, hs, rfl⟩ := List.mem_map.mp ha
      obtain rfl := List.mem_singleton.mp hb
      exact hshown shown hs
    unmarked := h.unmarked
    mark := fun v hv => hkeep v (h.mark v hv)
    clean := fun hclean => hkeep _ (h.clean hclean) }

/-- What a tick does with the light snapshot. -/
lemma Sound.resumed_light (h : Sound version s) {v : ℕ} (hi : s.ticks[i]? = some ⟨began, .lightServed v⟩)
    (hstep : s.step version (.resumed i) = some t) : Sound version t := by
  have hmem := List.mem_of_getElem? hi
  have hended := h.erased fun _ hx => hx.erased hi rfl
  have hcurrent : began = s.changes → v = version s.world := h.fresh _ hmem
  simp only [WorldPoll.step, hi] at hstep
  split_ifs at hstep with hsame hlater
  · cases hstep
    refine hended.cleaned fun heq => ?_
    rw [← hcurrent heq]
    exact hended.mark v hsame.symm
  · cases hstep
    have hmoved : Sound version (s.moved i began (.full v)) :=
      h.moved hi (h.within _ hmem) (fun _ => trivial) rfl (by simp [Phase.marked])
    refine hmoved.marked ?_
    exact Or.inr (Or.inr ⟨⟨began, .full v⟩, mem_set_self hi, rfl⟩)
  · cases hstep
    refine (hended.firstRead (not_le.mp hlater) v).cleaned fun heq => ?_
    exact Or.inl (congrArg some (hcurrent heq))

lemma Sound.resumed_full (h : Sound version s) {seen n : ℕ} {world : World}
    (hi : s.ticks[i]? = some ⟨began, .fullServed seen world n⟩) (ho : Orderly version s (.resumed i))
    (hstep : s.step version (.resumed i) = some t) : Sound version t := by
  have hmem := List.mem_of_getElem? hi
  simp only [WorldPoll.step, hi] at hstep
  cases hstep
  have hnext : ∀ other ∈ s.ticks, ∀ m ∈ other.phase.number, n ≤ m := ho _ hi n rfl
  have hseen : seen ≤ version world := (h.within _ hmem).1
  have hshown : world ∈ s.emitted ++ [world] := List.mem_append_right _ (List.mem_singleton_self world)
  refine ((h.emits hi hnext).erased ?_).cleaned ?_
  · rintro v (hfirst | hold | ⟨tick, htick, hv⟩)
    · exact Or.inl hfirst
    · exact Or.inr (Or.inl hold)
    · by_cases heq : tick = ⟨began, .fullServed seen world n⟩
      · subst heq
        cases hv
        exact Or.inr (Or.inl ⟨world, hshown, hseen⟩)
      · exact Or.inr (Or.inr ⟨tick, mem_eraseIdx_of_ne hi htick heq, hv⟩)
  · intro heq
    have hcurrent : version world = version s.world := h.fresh _ hmem heq
    exact Or.inr (Or.inl ⟨world, hshown, hcurrent.ge⟩)

lemma Sound.step {e : PollEvent World} (h : Sound version s) (ho : Orderly version s e)
    (hstep : s.step version e = some t) : Sound version t := by
  cases e with
  | changed world =>
    cases hstep
    exact h.changed ho
  | stopped =>
    cases hstep
    exact { h with }
  | beat connected =>
    rw [WorldPoll.step] at hstep
    split_ifs at hstep
    · cases hstep
      exact h
    · cases hstep
      exact h.beat
  | served i =>
    rw [WorldPoll.step] at hstep
    split at hstep
    · next began hi =>
      cases hstep
      exact h.moved hi le_rfl (fun _ => rfl) rfl (by simp [Phase.marked])
    · next began seen hi =>
      cases hstep
      exact h.served_full hi
    · cases hstep
  | failed i =>
    rw [WorldPoll.step] at hstep
    split at hstep
    · next began hi =>
      cases hstep
      exact h.erased fun _ hx => hx.erased hi rfl
    · next began seen hi =>
      have hnot := ho _ hi
      cases hnot
    · cases hstep
  | resumed i =>
    have hshape := hstep
    rw [WorldPoll.step] at hshape
    split at hshape
    · next began v hi => exact h.resumed_light hi hstep
    · next began seen world n hi => exact h.resumed_full hi ho hstep
    · cases hshape

lemma Sound.converged (h : Sound version s) : s.Converged version := by
  refine ⟨h.forward, fun ⟨hticks, hclean⟩ ⟨v, hfirst, hmoved⟩ => ?_⟩
  obtain hfirst' | ⟨world, hworld, hle⟩ | ⟨tick, htick, _⟩ := h.clean hclean
  · exact absurd (Option.some.inj (hfirst'.symm.trans hfirst)) hmoved
  · obtain ⟨front, last, hemitted⟩ : ∃ front last, s.emitted = front ++ [last] :=
      (List.eq_nil_or_concat' s.emitted).resolve_left (List.ne_nil_of_mem hworld)
    have hforward := h.forward
    rw [hemitted, List.map_append, List.pairwise_append] at hforward
    have hlast : version last ≤ version s.world := h.shown last (by rw [hemitted]; simp)
    have hmax : version world ≤ version last := by
      rw [hemitted] at hworld
      obtain hold | hnew := List.mem_append.mp hworld
      · exact hforward.2.2 _ (List.mem_map_of_mem hold) _ (by simp)
      · rw [List.mem_singleton.mp hnew]
    rw [hemitted, List.getLast?_concat, Option.map_some]
    exact congrArg some (le_antisymm hlast (hle.trans hmax))
  · rw [hticks] at htick
    cases htick

end Invariant

section Convergence

variable {World : Type} {version : World → ℕ} {s : WorldPoll World}

/-- In an orderly run the last snapshot shown is the current one whenever the poll has come to rest, and the versions
shown never go back. -/
theorem world_pushes_converge (version : World → ℕ) (s : WorldPoll World)
    (h : (startWorldPoll version).Reachable (Orderly version) s) : s.Converged version := by
  refine (h.invariant (P := Sound version) ?_ ?_).converged
  · rintro s ⟨world, rfl⟩
    exact sound_init world
  · exact fun s e t _ hs ho hstep => hs.step ho hstep

/-- The first tick reads version 1. After the change to version 2 the next tick marks it and its full read fails, and
the third one has nothing more to show. -/
def failedPush : List (PollEvent ℕ) :=
  [.beat true, .served 0, .resumed 0, .changed 2, .beat true, .served 0, .resumed 0, .failed 0, .beat true, .served 0,
    .resumed 0]

theorem world_push_lost : ∃ s, (startWorldPoll fun v : ℕ => v).Reachable System.free s ∧ ¬ s.Converged fun v => v := by
  let fresh : WorldPoll ℕ := ⟨1, 0, 0, -1, false, [], [], none, false⟩
  have hrun : ((startWorldPoll fun v : ℕ => v).exec System.free fresh failedPush).map
      (fun s => s.ticks.isEmpty && s.clean && decide (s.first = some 1) && decide (s.world = 2) && s.emitted.isEmpty) =
        some true := by
    decide
  have hinit : (startWorldPoll fun v : ℕ => v).init fresh := ⟨1, rfl⟩
  obtain ⟨s, hreach, hs⟩ := System.exec_spec hinit hrun
  simp only [Bool.and_eq_true, List.isEmpty_iff, decide_eq_true_eq] at hs
  obtain ⟨⟨⟨⟨hticks, hclean⟩, hfirst⟩, hworld⟩, hemitted⟩ := hs
  refine ⟨s, hreach, fun hconverged => ?_⟩
  have hlast := hconverged.last ⟨hticks, hclean⟩ ⟨1, hfirst, by rw [hworld]; decide⟩
  rw [hemitted] at hlast
  cases hlast

/-- The same run with the full snapshot served, and taken up. -/
def shownPush : List (PollEvent ℕ) :=
  [.beat true, .served 0, .resumed 0, .changed 2, .beat true, .served 0, .resumed 0, .served 0, .resumed 0]


theorem world_push_shown : ∃ s : WorldPoll ℕ, s.Quiescent ∧ s.HasMoved (fun v => v) ∧ s.world = 2 ∧
    s.Converged fun v => v := by
  let fresh : WorldPoll ℕ := ⟨1, 0, 0, -1, false, [], [], none, false⟩
  have hrun : ((startWorldPoll fun v : ℕ => v).exec (Orderly fun v => v) fresh shownPush).map
      (fun s => s.ticks.isEmpty && s.clean && decide (s.first = some 1) && decide (s.world = 2)) = some true := by
    decide
  have hinit : (startWorldPoll fun v : ℕ => v).init fresh := ⟨1, rfl⟩
  obtain ⟨s, hreach, hs⟩ := System.exec_spec hinit hrun
  simp only [Bool.and_eq_true, List.isEmpty_iff, decide_eq_true_eq] at hs
  obtain ⟨⟨⟨hticks, hclean⟩, hfirst⟩, hworld⟩ := hs
  exact ⟨s, ⟨hticks, hclean⟩, ⟨1, hfirst, by rw [hworld]; decide⟩, hworld, world_pushes_converge (fun v => v) s hreach⟩

end Convergence

end VivimOmega.Console

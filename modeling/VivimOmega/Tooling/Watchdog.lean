import VivimOmega.Library.Transition

/-! The consumption watchdog: probes, the streaks of misses and of heaps above budget, and the evictions they bring. -/

namespace VivimOmega.Tooling

open Library

section Policy

structure WatchdogBudget where
  memMB : Option ℚ := none
  intervalMs : Option ℚ := none

structure WatchdogOptions where
  intervalMs : ℚ := 250
  missLimit : ℕ := 3
  overLimit : ℕ := 2
  defaultMemMB : ℚ := 256
  budgets : String → Option WatchdogBudget := fun _ => none
  requireBudget : Bool := false

inductive Reason
  | unresponsive (missStreak missLimit : ℕ)
  | overBudget (lastHeapUsed memMB : ℚ) (overStreak : ℕ)

inductive Verdict
  | ok
  | evict (reason : Reason) (fast : Bool)

structure Sample where
  answered : Bool
  heapUsed : Option ℚ

structure Track where
  pending : Bool := false
  missStreak : ℕ := 0
  overStreak : ℕ := 0
  samples : List Sample := []

def classify (budget : WatchdogBudget) (missStreak overStreak : ℕ) (lastHeapUsed : Option ℚ)
    (opts : WatchdogOptions) : Verdict :=
  if opts.missLimit ≤ missStreak then .evict (.unresponsive missStreak opts.missLimit) true
  else
    match budget.memMB with
    | some memMB =>
      if opts.overLimit ≤ overStreak then .evict (.overBudget (lastHeapUsed.getD 0) memMB overStreak) false else .ok
    | none => .ok

/-- The budget of a compartment in MB, and whether it is declared. -/
def budgetStatus (id : String) (budgets : String → Option WatchdogBudget) (defaultMemMB : ℚ) : ℚ × Bool :=
  match (budgets id).bind WatchdogBudget.memMB with
  | some memMB => (memMB, true)
  | none => (defaultMemMB, false)

def dueForSample (budget : Option WatchdogBudget) (globalIntervalMs : ℚ) (lastSampledAt : Option ℤ) (now : ℤ) : Bool :=
  let interval : ℚ := match budget.bind WatchdogBudget.intervalMs with
    | some declared => if 0 < declared then declared else globalIntervalMs
    | none => globalIntervalMs
  match lastSampledAt with
  | none => true
  | some last => decide (interval ≤ ((now - last : ℤ) : ℚ))

/-- The budget that `onMessage` and `tick` read. -/
def WatchdogOptions.budgetOf (o : WatchdogOptions) (id : String) : WatchdogBudget :=
  (o.budgets id).getD { memMB := some o.defaultMemMB }

def heapOver (budget : WatchdogBudget) (heapUsed : Option ℚ) : Bool :=
  match budget.memMB, heapUsed with
  | some memMB, some heap => memMB * 1024 * 1024 < heap
  | _, _ => false

/-- What `onMessage` does with an answer. -/
def Track.hear (budget : WatchdogBudget) (heapUsed : Option ℚ) (t : Track) : Track :=
  let samples := t.samples ++ [⟨true, heapUsed⟩]
  { pending := false
    missStreak := 0
    overStreak := if heapOver budget heapUsed then t.overStreak + 1 else 0
    samples := samples.drop (samples.length - 10) }

def Track.probe (t : Track) : Track :=
  { t with pending := true, missStreak := if t.pending then t.missStreak + 1 else t.missStreak }

end Policy

section Watchdog

structure Eviction where
  id : String
  reason : Reason
  evictedAt : ℤ

inductive JournalEntry
  | terminate (scope : String) (reason : Reason) (fast : Bool)
  | budgetDefault (scope : String) (memMB : ℚ)

/-- The clock of a tick: the time it begins, and that at which it evicts a compartment. -/
structure Clock where
  now : ℤ
  evictedAt : String → ℤ

/-- A tick that awaits a termination, with the compartments it has still to visit. -/
structure Tick where
  id : String
  rest : List (String × Bool)
  clock : Clock

/-- What a compartment's worker sees of the watchdog: a probe, and whether it evicts, and its own answers. -/
inductive Obs
  | sample (evicted : Bool)
  | answer (heapUsed : Option ℚ)
  deriving DecidableEq

/-- The watchdog beside the router's compartments, each active or not; a compartment keeps its worker. -/
structure Watchdog where
  compartments : List (String × Bool) := []
  evictions : List Eviction := []
  tracks : String → Option Track := fun _ => none
  listening : String → Bool := fun _ => false
  lastSampledAt : String → Option ℤ := fun _ => none
  stopped : Bool := false
  awaiting : List Tick := []
  journal : List JournalEntry := []
  terminations : List (String × Bool) := []
  seen : String → List Obs := fun _ => []

namespace Watchdog

variable (o : WatchdogOptions) (clock : Clock) (s : Watchdog)

def sample (id : String) : Watchdog × Bool :=
  let t := ((s.tracks id).getD {}).probe
  let probed (evicted : Bool) : Watchdog := { s with
    listening := Function.update s.listening id true
    tracks := Function.update s.tracks id (some t)
    seen := Function.update s.seen id (s.seen id ++ [.sample evicted]) }
  match classify (o.budgetOf id) t.missStreak t.overStreak (t.samples.getLast?.bind Sample.heapUsed) o with
  | .evict reason fast =>
    ({ probed true with
      evictions := s.evictions ++ [⟨id, reason, clock.evictedAt id⟩]
      journal := s.journal ++ [.terminate id reason fast]
      terminations := s.terminations ++ [(id, fast)] }, true)
  | .ok =>
    let status := budgetStatus id o.budgets o.defaultMemMB
    let warnings := if o.requireBudget && !status.2 then [JournalEntry.budgetDefault id status.1] else []
    ({ probed false with journal := s.journal ++ warnings }, false)

/-- One round of the loop of `tick`, and whether it evicts. -/
def visit (c : String × Bool) : Watchdog × Bool :=
  if c.2 = false ∨ s.evictions.any (fun e => e.id = c.1) then (s, false)
  else if dueForSample (o.budgets c.1) o.intervalMs (s.lastSampledAt c.1) clock.now then
    let due : Watchdog := { s with lastSampledAt := Function.update s.lastSampledAt c.1 (some clock.now) }
    if s.compartments.any (fun x => x.1 = c.1) then due.sample o clock c.1 else (due, false)
  else (s, false)

/-- The loop of `tick`, up to its end or to the termination that it awaits. -/
def run : List (String × Bool) → Watchdog → Watchdog
  | [], s => s
  | c :: rest, s =>
    match s.visit o clock c with
    | (evicting, true) => { evicting with awaiting := evicting.awaiting ++ [⟨c.1, rest, clock⟩] }
    | (visited, false) => run rest visited

def tick : Watchdog := if s.stopped then s else run o clock s.compartments s

/-- The rest of a tick, whose termination has come to an end. -/
def resume (k : ℕ) : Option Watchdog :=
  (s.awaiting[k]?).map fun t =>
    run o t.clock t.rest { s with
      awaiting := s.awaiting.eraseIdx k
      listening := Function.update s.listening t.id false
      tracks := Function.update s.tracks t.id none
      lastSampledAt := Function.update s.lastSampledAt t.id none }

/-- A `probeStat` from a worker; it is an answer once the worker has been probed. -/
def probeStat (id : String) (heapUsed : Option ℚ) : Watchdog :=
  let answered := if s.seen id = [] then s.seen else Function.update s.seen id (s.seen id ++ [.answer heapUsed])
  match s.listening id, s.tracks id with
  | true, some t =>
    { s with seen := answered, tracks := Function.update s.tracks id (some (t.hear (o.budgetOf id) heapUsed)) }
  | _, _ => { s with seen := answered }

inductive Event
  | tick (clock : Clock)
  | resume (k : ℕ)
  | probeStat (id : String) (heapUsed : Option ℚ)
  | router (compartments : List (String × Bool))
  | stop

def step (o : WatchdogOptions) (s : Watchdog) : Event → Option Watchdog
  | .tick clock => some (s.tick o clock)
  | .resume k => s.resume o k
  | .probeStat id heapUsed => some (s.probeStat o id heapUsed)
  | .router compartments => some { s with compartments := compartments }
  | .stop => some { s with stopped := true }

def system (o : WatchdogOptions) : System Watchdog Event where
  init s := ∃ compartments, s = { compartments := compartments }
  step := step o

end Watchdog

end Watchdog

section History

def answers (h : List Obs) : List (Option ℚ) :=
  h.filterMap fun
    | .answer heapUsed => some heapUsed
    | .sample _ => none

/-- How many of the last answers are above the budget. -/
def trailing (above : Option ℚ → Bool) (h : List Obs) : ℕ := ((answers h).reverse.takeWhile above).length

/-- The law of the watchdog for a compartment, where `above` says which heaps are above its effective budget. -/
structure WatchdogLaw (o : WatchdogOptions) (above : Option ℚ → Bool) (h : List Obs) : Prop where
  spared : (∀ b c, ¬ [.sample b, .sample c] <:+: h) → (∀ a ∈ answers h, above a = false) → .sample true ∉ h
  unresponsive : ∀ bs : List Bool, bs.length = o.missLimit + 1 → bs.map .sample <:+: h → true ∈ bs
  bounded : ∀ before high rest b, before ++ high ++ rest ++ [.sample b] <+: h → o.overLimit ≤ (answers high).length →
    (∀ a ∈ answers high, above a = true) → (∀ c, .sample c ∉ rest) → b = true
  once : h.count (.sample true) ≤ 1

def observe (budget : WatchdogBudget) (t : Track) : Obs → Track
  | .sample _ => t.probe
  | .answer heapUsed => t.hear budget heapUsed

def trackOf (budget : WatchdogBudget) (h : List Obs) : Track := h.foldl (observe budget) {}

/-- The history of a compartment whose samples the streaks judge, and of which no answer within the budget comes between
answers that are to evict it and its next sample. -/
inductive Judged (o : WatchdogOptions) (budget : WatchdogBudget) : List Obs → Prop
  | nil : Judged o budget []
  | answer {h heapUsed} : Judged o budget h →
      (.sample true ∉ h → heapOver budget heapUsed = false → trailing (heapOver budget) h < o.overLimit) →
        Judged o budget (h ++ [.answer heapUsed])
  | sample {h b} : Judged o budget h → .sample true ∉ h →
      (b = true ↔ o.missLimit ≤ (trackOf budget h).probe.missStreak ∨ o.overLimit ≤ (trackOf budget h).overStreak) →
        Judged o budget (h ++ [.sample b])

variable {o : WatchdogOptions} {budget : WatchdogBudget} {h g : List Obs}

lemma trackOf_append (budget : WatchdogBudget) (h : List Obs) (x : Obs) :
    trackOf budget (h ++ [x]) = observe budget (trackOf budget h) x := by
  simp [trackOf]

lemma answers_append (h g : List Obs) : answers (h ++ g) = answers h ++ answers g := List.filterMap_append

lemma trailing_answer (above : Option ℚ → Bool) (h : List Obs) (heapUsed : Option ℚ) :
    trailing above (h ++ [.answer heapUsed]) = if above heapUsed then trailing above h + 1 else 0 := by
  have hlast : answers (h ++ [.answer heapUsed]) = answers h ++ [heapUsed] := answers_append h _
  rw [trailing, hlast, List.reverse_append, List.reverse_singleton, List.singleton_append, List.takeWhile_cons]
  split_ifs
  · rfl
  · rfl

lemma trailing_sample (above : Option ℚ → Bool) (h : List Obs) (b : Bool) :
    trailing above (h ++ [.sample b]) = trailing above h := by
  have hlast : answers (h ++ [.sample b]) = answers h := (answers_append h _).trans (List.append_nil _)
  rw [trailing, hlast]
  rfl

lemma overStreak_eq (budget : WatchdogBudget) (h : List Obs) :
    (trackOf budget h).overStreak = trailing (heapOver budget) h := by
  induction h using List.reverseRecOn with
  | nil => rfl
  | append_singleton h x ih =>
    rw [trackOf_append]
    cases x with
    | sample b =>
      rw [trailing_sample]
      exact ih
    | answer heapUsed =>
      rw [trailing_answer, ← ih]
      rfl

lemma Judged.snoc {x : Obs} (hj : Judged o budget (h ++ [x])) : Judged o budget h := by
  generalize hg : h ++ [x] = g at hj
  cases hj with
  | nil => simp at hg
  | answer hj _ => exact (List.append_inj_left' hg rfl).symm ▸ hj
  | sample hj _ _ => exact (List.append_inj_left' hg rfl).symm ▸ hj

lemma Judged.take (hj : Judged o budget (h ++ g)) : Judged o budget h := by
  induction g using List.reverseRecOn with
  | nil => rwa [List.append_nil] at hj
  | append_singleton g x ih =>
    rw [← List.append_assoc] at hj
    exact ih hj.snoc

lemma Judged.of_sample {b : Bool} (hj : Judged o budget (h ++ [.sample b])) : .sample true ∉ h ∧
    (b = true ↔ o.missLimit ≤ (trackOf budget h).probe.missStreak ∨ o.overLimit ≤ (trackOf budget h).overStreak) := by
  generalize hg : h ++ [Obs.sample b] = g at hj
  cases hj with
  | nil => simp at hg
  | answer _ _ => simp at hg
  | sample _ hfresh hiff =>
    obtain ⟨rfl, hb⟩ := List.append_inj' hg rfl
    obtain rfl := Obs.sample.inj (List.head_eq_of_cons_eq hb)
    exact ⟨hfresh, hiff⟩

lemma Judged.of_answer {heapUsed : Option ℚ} (hj : Judged o budget (h ++ [.answer heapUsed])) :
    .sample true ∉ h → heapOver budget heapUsed = false → trailing (heapOver budget) h < o.overLimit := by
  generalize hg : h ++ [Obs.answer heapUsed] = g at hj
  cases hj with
  | nil => simp at hg
  | answer _ hlow =>
    obtain ⟨rfl, hb⟩ := List.append_inj' hg rfl
    obtain rfl := Obs.answer.inj (List.head_eq_of_cons_eq hb)
    exact hlow
  | sample _ _ _ => simp at hg

lemma missStreak_ge (budget : WatchdogBudget) (h : List Obs) {bs : List Bool} (hbs : bs ≠ []) :
    (trackOf budget (h ++ bs.map .sample)).pending = true ∧
      bs.length ≤ (trackOf budget (h ++ bs.map .sample)).missStreak + 1 := by
  induction bs using List.reverseRecOn with
  | nil => exact absurd rfl hbs
  | append_singleton bs b ih =>
    rw [List.map_append, ← List.append_assoc, List.map_singleton, trackOf_append]
    refine ⟨rfl, ?_⟩
    rw [List.length_append, List.length_singleton]
    by_cases hnil : bs = []
    · rw [hnil, List.length_nil]
      omega
    · obtain ⟨hpending, hlength⟩ := ih hnil
      have hmiss : (observe budget (trackOf budget (h ++ bs.map .sample)) (.sample b)).missStreak =
          (trackOf budget (h ++ bs.map .sample)).missStreak + 1 := if_pos hpending
      omega

lemma Judged.unresponsive (hj : Judged o budget h) (bs : List Bool) (hlength : bs.length = o.missLimit + 1)
    (hbs : bs.map .sample <:+: h) : true ∈ bs := by
  obtain ⟨before, after, rfl⟩ := hbs
  induction bs using List.reverseRecOn with
  | nil => simp at hlength
  | append_singleton bs b _ =>
    have hsample := hj.take
    rw [List.map_append, ← List.append_assoc, List.map_singleton] at hsample
    obtain ⟨_, hb⟩ := hsample.of_sample
    rw [List.length_append, List.length_singleton] at hlength
    have hmissed : o.missLimit ≤ (trackOf budget (before ++ bs.map .sample)).probe.missStreak := by
      by_cases hnil : bs = []
      · rw [hnil, List.length_nil] at hlength
        omega
      · obtain ⟨hpending, hge⟩ := missStreak_ge budget before hnil
        have hmiss : (trackOf budget (before ++ bs.map .sample)).probe.missStreak =
            (trackOf budget (before ++ bs.map .sample)).missStreak + 1 := if_pos hpending
        omega
    rw [hb.mpr (.inl hmissed)]
    exact List.mem_append_right _ List.mem_cons_self

lemma Judged.calm (hj : Judged o budget h) (hmiss : 1 ≤ o.missLimit) (hover : 1 ≤ o.overLimit)
    (hanswered : ∀ b c, ¬ [Obs.sample b, Obs.sample c] <:+: h) (hlow : ∀ a ∈ answers h, heapOver budget a = false) :
    .sample true ∉ h ∧ (trackOf budget h).missStreak = 0 ∧ (trackOf budget h).overStreak = 0 ∧
      ((trackOf budget h).pending = true → ∃ g b, h = g ++ [.sample b]) := by
  induction hj with
  | nil => exact ⟨List.not_mem_nil, rfl, rfl, nofun⟩
  | @answer h heapUsed _ _ ih =>
    rw [answers_append] at hlow
    obtain ⟨hfresh, _, _, _⟩ := ih (fun b c hbc => hanswered b c (hbc.trans (List.prefix_append _ _).isInfix))
      fun a ha => hlow a (List.mem_append_left _ ha)
    have hwithin : heapOver budget heapUsed = false := hlow heapUsed (List.mem_append_right _ List.mem_cons_self)
    rw [trackOf_append]
    refine ⟨by simp [hfresh], rfl, ?_, nofun⟩
    simp [observe, Track.hear, hwithin]
  | @sample h b _ _ hb ih =>
    have hanswers : answers (h ++ [Obs.sample b]) = answers h := (answers_append h _).trans (List.append_nil _)
    rw [hanswers] at hlow
    obtain ⟨hfresh, hmissed, hstreak, hpending⟩ :=
      ih (fun b c hbc => hanswered b c (hbc.trans (List.prefix_append _ _).isInfix)) hlow
    have hheard : (trackOf budget h).pending = false := by
      by_contra hp
      obtain ⟨g, c, rfl⟩ := hpending (by simpa using hp)
      exact hanswered c b ⟨g, [], by simp⟩
    have hzero : (trackOf budget h).probe.missStreak = 0 := by simp [Track.probe, hheard, hmissed]
    have hb' : b = false := by
      rw [hzero, hstreak] at hb
      by_contra hne
      obtain hle | hle := hb.mp (by simpa using hne)
      · omega
      · omega
    rw [trackOf_append, hb']
    exact ⟨by simp [hfresh], hzero, hstreak, fun _ => ⟨h, false, rfl⟩⟩

lemma trailing_ge (above : Option ℚ → Bool) (h g : List Obs) (hg : ∀ a ∈ answers g, above a = true) :
    (answers g).length ≤ trailing above (h ++ g) := by
  have hall : ∀ a ∈ (answers g).reverse, above a = true := fun a ha => hg a (List.mem_reverse.mp ha)
  rw [trailing, answers_append, List.reverse_append, List.takeWhile_append_of_pos hall, List.length_append,
    List.length_reverse]
  exact Nat.le_add_right _ _

lemma Judged.bounded (hj : Judged o budget h) (before high rest : List Obs) (b : Bool)
    (hpre : before ++ high ++ rest ++ [.sample b] <+: h) (hmany : o.overLimit ≤ (answers high).length)
    (hhigh : ∀ a ∈ answers high, heapOver budget a = true) (hrest : ∀ c, .sample c ∉ rest) : b = true := by
  obtain ⟨after, rfl⟩ := hpre
  have hsample := hj.take
  obtain ⟨hfresh, hb⟩ := hsample.of_sample
  refine hb.mpr (.inr ?_)
  rw [overStreak_eq]
  have hrun := hsample.snoc
  clear hb hj hsample
  induction rest using List.reverseRecOn with
  | nil =>
    rw [List.append_nil]
    exact hmany.trans (trailing_ge _ _ _ hhigh)
  | append_singleton rest x ih =>
    rw [← List.append_assoc] at hrun hfresh ⊢
    have hfresh' : Obs.sample true ∉ before ++ high ++ rest := fun hmem => hfresh (List.mem_append_left _ hmem)
    have hle := ih (fun c hc => hrest c (List.mem_append_left _ hc)) hfresh' hrun.snoc
    cases x with
    | sample c => exact absurd (List.mem_append_right _ List.mem_cons_self) (hrest c)
    | answer heapUsed =>
      rw [trailing_answer]
      split_ifs with habove
      · omega
      · have hlt := hrun.of_answer hfresh' (by simpa using habove)
        omega

lemma Judged.once (hj : Judged o budget h) : h.count (.sample true) ≤ 1 := by
  induction hj with
  | nil => exact Nat.zero_le _
  | answer _ _ ih => simpa [List.count_append] using ih
  | sample _ hfresh _ _ =>
    rw [List.count_append, List.count_eq_zero_of_not_mem hfresh, zero_add]
    exact List.count_le_length

lemma Judged.law (hj : Judged o budget h) (hmiss : 1 ≤ o.missLimit) (hover : 1 ≤ o.overLimit) :
    WatchdogLaw o (heapOver budget) h where
  spared hanswered hlow := (hj.calm hmiss hover hanswered hlow).1
  unresponsive := hj.unresponsive
  bounded := hj.bounded
  once := hj.once

end History

section Law

/-- A heap above the effective budget, as `budgetStatus` reports it. -/
def WatchdogOptions.above (o : WatchdogOptions) (id : String) (heapUsed : Option ℚ) : Bool :=
  match heapUsed with
  | some heap => (budgetStatus id o.budgets o.defaultMemMB).1 * 1024 * 1024 < heap
  | none => false

variable {o : WatchdogOptions} {id : String} {s t : Watchdog} {clock : Clock}

lemma budgetOf_memMB (hdeclared : ∀ b, o.budgets id = some b → b.memMB ≠ none) :
    (o.budgetOf id).memMB = some (budgetStatus id o.budgets o.defaultMemMB).1 := by
  unfold WatchdogOptions.budgetOf budgetStatus
  cases hbudget : o.budgets id with
  | none => rfl
  | some b =>
    obtain ⟨memMB, hmem⟩ := Option.ne_none_iff_exists'.mp (hdeclared b hbudget)
    simp [hmem]

lemma heapOver_eq (hdeclared : ∀ b, o.budgets id = some b → b.memMB ≠ none) :
    heapOver (o.budgetOf id) = o.above id := by
  funext heapUsed
  unfold heapOver
  rw [budgetOf_memMB hdeclared]
  cases heapUsed with
  | none => rfl
  | some heap => rfl

lemma classify_ok_iff {b : WatchdogBudget} {memMB : ℚ} (hmem : b.memMB = some memMB) (miss streak : ℕ)
    (last : Option ℚ) : classify b miss streak last o = .ok ↔ ¬ (o.missLimit ≤ miss ∨ o.overLimit ≤ streak) := by
  unfold classify
  rw [hmem]
  split_ifs with hmiss hover
  · simp [hmiss]
  · simp [hover]
  · simp [hmiss, hover]

def Watchdog.gone (s : Watchdog) : List String := s.evictions.map Eviction.id

/-- What the watchdog keeps of a compartment that it has not evicted follows what the compartment has seen. -/
structure Watched (o : WatchdogOptions) (id : String) (s : Watchdog) : Prop where
  judged : Judged o (o.budgetOf id) (s.seen id)
  evicted : id ∈ s.gone ↔ .sample true ∈ s.seen id
  unseen : s.seen id = [] → s.listening id = false ∧ s.tracks id = none
  live : .sample true ∉ s.seen id → s.seen id ≠ [] →
    s.listening id = true ∧ s.tracks id = some (trackOf (o.budgetOf id) (s.seen id))
  awaiting : ∀ t ∈ s.awaiting, t.id ∈ s.gone
  terminated : s.terminations.map Prod.fst = s.gone
  nodup : s.gone.Nodup

/-- The track that a sample reads, and the verdict on it. -/
def Watchdog.read (s : Watchdog) (id : String) : Track := ((s.tracks id).getD {}).probe

lemma sample_spec (o : WatchdogOptions) (clock : Clock) (s : Watchdog) (x : String) : ∃ b,
    (s.sample o clock x).2 = b ∧
      (b = false ↔ classify (o.budgetOf x) (s.read x).missStreak (s.read x).overStreak
        ((s.read x).samples.getLast?.bind Sample.heapUsed) o = .ok) ∧
      (s.sample o clock x).1.seen = Function.update s.seen x (s.seen x ++ [.sample b]) ∧
      (s.sample o clock x).1.tracks = Function.update s.tracks x (some (s.read x)) ∧
      (s.sample o clock x).1.listening = Function.update s.listening x true ∧
      (s.sample o clock x).1.awaiting = s.awaiting ∧
      (s.sample o clock x).1.gone = s.gone ++ (if b then [x] else []) ∧
      (s.sample o clock x).1.terminations.map Prod.fst =
        s.terminations.map Prod.fst ++ (if b then [x] else []) := by
  unfold Watchdog.sample
  dsimp only
  split
  · next reason fast hverdict =>
    refine ⟨true, rfl, ?_, rfl, rfl, rfl, rfl, ?_, ?_⟩
    · exact iff_of_false nofun fun hok => Verdict.noConfusion (hok.symm.trans hverdict)
    · simp [Watchdog.gone]
    · simp
  · next hverdict =>
    refine ⟨false, rfl, iff_of_true rfl hverdict, rfl, rfl, rfl, rfl, ?_, ?_⟩
    · simp [Watchdog.gone]
    · simp

lemma Watched.sample (hs : Watched o id s) (hdeclared : ∀ b, o.budgets id = some b → b.memMB ≠ none) {x : String}
    (hx : x ∉ s.gone) : Watched o id (s.sample o clock x).1 ∧
      ((s.sample o clock x).2 = true → x ∈ (s.sample o clock x).1.gone) := by
  obtain ⟨b, hb, hverdict, hseen, htracks, hlistening, hawaiting, hgone, hterminations⟩ := sample_spec o clock s x
  have hmem : ∀ y, y ∈ (s.sample o clock x).1.gone ↔ y ∈ s.gone ∨ (b = true ∧ y = x) := by
    intro y
    rw [hgone]
    cases b <;> simp
  refine ⟨⟨?_, ?_, ?_, ?_, ?_, ?_, ?_⟩, fun htrue => (hmem x).mpr (.inr ⟨hb ▸ htrue, rfl⟩)⟩
  · rw [hseen]
    by_cases hid : id = x
    · subst hid
      rw [Function.update_self]
      have hfresh : Obs.sample true ∉ s.seen id := fun h => hx (hs.evicted.mpr h)
      have hread : s.read id = (trackOf (o.budgetOf id) (s.seen id)).probe := by
        unfold Watchdog.read
        by_cases hnil : s.seen id = []
        · rw [(hs.unseen hnil).2, hnil]
          rfl
        · rw [(hs.live hfresh hnil).2]
          rfl
      refine hs.judged.sample hfresh ?_
      rw [classify_ok_iff (budgetOf_memMB hdeclared), hread] at hverdict
      rw [← Bool.not_eq_false, hverdict, not_not]
      rfl
    · rw [Function.update_of_ne hid]
      exact hs.judged
  · rw [hmem, hseen]
    by_cases hid : id = x
    · subst hid
      rw [Function.update_self, List.mem_append, hs.evicted]
      simp
    · rw [Function.update_of_ne hid, hs.evicted]
      simp [hid]
  · rw [hseen, hlistening, htracks]
    by_cases hid : id = x
    · subst hid
      rw [Function.update_self]
      simp
    · simp only [Function.update_of_ne hid]
      exact hs.unseen
  · rw [hseen, hlistening, htracks]
    by_cases hid : id = x
    · subst hid
      simp only [Function.update_self]
      intro hfresh _
      refine ⟨trivial, ?_⟩
      have hfresh' : Obs.sample true ∉ s.seen id := fun h => hfresh (List.mem_append_left _ h)
      rw [trackOf_append]
      unfold Watchdog.read
      by_cases hnil : s.seen id = []
      · rw [(hs.unseen hnil).2, hnil]
        rfl
      · rw [(hs.live hfresh' hnil).2]
        rfl
    · simp only [Function.update_of_ne hid]
      exact hs.live
  · rw [hawaiting]
    exact fun t ht => (hmem t.id).mpr (.inl (hs.awaiting t ht))
  · rw [hterminations, hs.terminated, hgone]
  · rw [hgone]
    cases b with
    | false => simpa using hs.nodup
    | true => exact List.nodup_append.mpr ⟨hs.nodup, List.nodup_singleton x, fun a ha c hc hac =>
        hx (List.mem_singleton.mp hc ▸ hac ▸ ha)⟩

lemma Watched.visit (hs : Watched o id s) (clock : Clock) (hdeclared : ∀ b, o.budgets id = some b → b.memMB ≠ none) (c : String × Bool) :
    Watched o id (s.visit o clock c).1 ∧ ((s.visit o clock c).2 = true → c.1 ∈ (s.visit o clock c).1.gone) := by
  unfold Watchdog.visit
  split_ifs with hskip hdue hworker
  · exact ⟨hs, nofun⟩
  · have hx : c.1 ∉ s.gone := by
      intro hmem
      obtain ⟨e, he, hid⟩ := List.mem_map.mp hmem
      exact hskip (.inr (List.any_eq_true.mpr ⟨e, he, by simpa using hid⟩))
    have hdueState : Watched o id { s with lastSampledAt := Function.update s.lastSampledAt c.1 (some clock.now) } :=
      { hs with }
    exact hdueState.sample hdeclared hx
  · exact ⟨{ hs with }, nofun⟩
  · exact ⟨hs, nofun⟩

lemma Watched.run (hs : Watched o id s) (hdeclared : ∀ b, o.budgets id = some b → b.memMB ≠ none)
    (cs : List (String × Bool)) : Watched o id (Watchdog.run o clock cs s) := by
  induction cs generalizing s with
  | nil => exact hs
  | cons c rest ih =>
    obtain ⟨hvisited, hevicts⟩ := hs.visit clock hdeclared c
    unfold Watchdog.run
    split
    · next evicting hvisit =>
      rw [hvisit] at hvisited hevicts
      have hawaiting : ∀ t ∈ evicting.awaiting ++ [⟨c.1, rest, clock⟩], t.id ∈ evicting.gone := by
        rw [List.forall_mem_append, List.forall_mem_singleton]
        exact ⟨hvisited.awaiting, hevicts rfl⟩
      exact { hvisited with awaiting := hawaiting }
    · next visited hvisit =>
      rw [hvisit] at hvisited
      exact ih hvisited

lemma Watched.resume {k : ℕ} (hs : Watched o id s) (hdeclared : ∀ b, o.budgets id = some b → b.memMB ≠ none)
    (hstep : s.resume o k = some t) : Watched o id t := by
  obtain ⟨tick, htick, rfl⟩ := Option.map_eq_some_iff.mp hstep
  refine Watched.run ?_ hdeclared _
  have hgone : tick.id ∈ s.gone := hs.awaiting tick (List.mem_of_getElem? htick)
  have hawaiting : ∀ t ∈ s.awaiting.eraseIdx k, t.id ∈ s.gone := fun t ht => hs.awaiting t (List.mem_of_mem_eraseIdx ht)
  by_cases hid : id = tick.id
  · have hseen : Obs.sample true ∈ s.seen id := hs.evicted.mp (hid ▸ hgone)
    exact { hs with
      unseen := fun hnil => absurd hseen (hnil ▸ List.not_mem_nil)
      live := fun hfresh => absurd hseen hfresh
      awaiting := hawaiting }
  · refine { hs with unseen := ?_, live := ?_, awaiting := hawaiting }
    · simp only [Function.update_of_ne hid]
      exact hs.unseen
    · simp only [Function.update_of_ne hid]
      exact hs.live

/-- No answer within the budget comes from the compartment between answers that are to evict it and its next sample. -/
def Steady (o : WatchdogOptions) (id : String) (s : Watchdog) : Watchdog.Event → Prop
  | .probeStat x heapUsed => x = id → .sample true ∉ s.seen id → o.above id heapUsed = false →
      trailing (o.above id) (s.seen id) < o.overLimit
  | _ => True

lemma probeStat_spec (o : WatchdogOptions) (s : Watchdog) (x : String) (heapUsed : Option ℚ) :
    (s.probeStat o x heapUsed).seen =
      (if s.seen x = [] then s.seen else Function.update s.seen x (s.seen x ++ [.answer heapUsed])) ∧
      (s.probeStat o x heapUsed).tracks = (if s.listening x then
        Function.update s.tracks x ((s.tracks x).map (Track.hear (o.budgetOf x) heapUsed)) else s.tracks) ∧
      (s.probeStat o x heapUsed).gone = s.gone ∧ (s.probeStat o x heapUsed).awaiting = s.awaiting ∧
      (s.probeStat o x heapUsed).terminations = s.terminations ∧
      (s.probeStat o x heapUsed).listening = s.listening := by
  unfold Watchdog.probeStat
  cases hlistening : s.listening x with
  | false => exact ⟨rfl, rfl, rfl, rfl, rfl, rfl⟩
  | true =>
    cases htrack : s.tracks x with
    | none =>
      have hsame : Function.update s.tracks x (Option.map (Track.hear (o.budgetOf x) heapUsed) none) = s.tracks := by
        rw [Option.map_none, ← htrack, Function.update_eq_self]
      exact ⟨rfl, hsame.symm, rfl, rfl, rfl, rfl⟩
    | some t => exact ⟨rfl, by simp, rfl, rfl, rfl, rfl⟩

lemma Watched.probeStat {x : String} {heapUsed : Option ℚ} (hs : Watched o id s)
    (hdeclared : ∀ b, o.budgets id = some b → b.memMB ≠ none) (hok : Steady o id s (.probeStat x heapUsed)) :
    Watched o id (s.probeStat o x heapUsed) := by
  obtain ⟨hseen, htracks, hgone, hawaiting, hterminations, hlistening⟩ := probeStat_spec o s x heapUsed
  by_cases hid : id = x
  · subst hid
    by_cases hnil : s.seen id = []
    · rw [if_pos hnil] at hseen
      rw [(hs.unseen hnil).1, if_neg Bool.false_ne_true] at htracks
      refine ⟨?_, ?_, ?_, ?_, ?_, ?_, ?_⟩
      · exact hseen ▸ hs.judged
      · exact hseen ▸ hgone ▸ hs.evicted
      · exact hseen ▸ htracks ▸ hlistening ▸ hs.unseen
      · exact hseen ▸ htracks ▸ hlistening ▸ hs.live
      · exact hawaiting ▸ hgone ▸ hs.awaiting
      · exact hterminations ▸ hgone ▸ hs.terminated
      · exact hgone ▸ hs.nodup
    · have hanswered : (s.probeStat o id heapUsed).seen id = s.seen id ++ [.answer heapUsed] := by
        rw [hseen, if_neg hnil, Function.update_self]
      have hmem : Obs.sample true ∈ (s.probeStat o id heapUsed).seen id ↔ Obs.sample true ∈ s.seen id := by
        rw [hanswered]
        simp
      refine ⟨?_, ?_, ?_, ?_, ?_, ?_, ?_⟩
      · rw [hanswered]
        refine hs.judged.answer ?_
        rw [heapOver_eq hdeclared]
        exact hok rfl
      · rw [hmem, hgone]
        exact hs.evicted
      · intro hempty
        rw [hanswered] at hempty
        exact absurd hempty (List.append_ne_nil_of_right_ne_nil _ (List.cons_ne_nil _ _))
      · intro hfresh _
        obtain ⟨hheard, htrack⟩ := hs.live (fun h => hfresh (hmem.mpr h)) hnil
        rw [hlistening, htracks, hanswered, trackOf_append, if_pos hheard, Function.update_self, htrack]
        exact ⟨hheard, rfl⟩
      · exact hawaiting ▸ hgone ▸ hs.awaiting
      · exact hterminations ▸ hgone ▸ hs.terminated
      · exact hgone ▸ hs.nodup
  · have hseen' : (s.probeStat o x heapUsed).seen id = s.seen id := by
      rw [hseen]
      split_ifs
      · rfl
      · exact Function.update_of_ne hid _ _
    have htracks' : (s.probeStat o x heapUsed).tracks id = s.tracks id := by
      rw [htracks]
      split_ifs
      · exact Function.update_of_ne hid _ _
      · rfl
    refine ⟨?_, ?_, ?_, ?_, ?_, ?_, ?_⟩
    · exact hseen' ▸ hs.judged
    · exact hseen' ▸ hgone ▸ hs.evicted
    · rw [hseen', htracks', hlistening]
      exact hs.unseen
    · rw [hseen', htracks', hlistening]
      exact hs.live
    · exact hawaiting ▸ hgone ▸ hs.awaiting
    · exact hterminations ▸ hgone ▸ hs.terminated
    · exact hgone ▸ hs.nodup

theorem watchdog_law (hmiss : 1 ≤ o.missLimit) (hover : 1 ≤ o.overLimit)
    (hdeclared : ∀ b, o.budgets id = some b → b.memMB ≠ none)
    (h : (Watchdog.system o).Reachable (Steady o id) s) :
    WatchdogLaw o (o.above id) (s.seen id) ∧
      (.sample true ∈ s.seen id ↔ id ∈ s.terminations.map Prod.fst) ∧ (s.terminations.map Prod.fst).Nodup := by
  have hs : Watched o id s := by
    refine h.invariant (P := Watched o id) ?_ ?_
    · rintro s ⟨compartments, rfl⟩
      exact ⟨.nil, by simp [Watchdog.gone], fun _ => ⟨rfl, rfl⟩, fun _ hne => absurd rfl hne, nofun, rfl, .nil⟩
    · intro s e t _ hs hok hstep
      cases e with
      | tick clock =>
        cases hstep
        unfold Watchdog.tick
        split_ifs
        · exact hs
        · exact hs.run hdeclared _
      | resume k => exact hs.resume hdeclared hstep
      | probeStat x heapUsed =>
        cases hstep
        exact hs.probeStat hdeclared hok
      | router compartments =>
        cases hstep
        exact { hs with }
      | stop =>
        cases hstep
        exact { hs with }
  refine ⟨heapOver_eq hdeclared ▸ hs.judged.law hmiss hover, ?_, ?_⟩
  · rw [hs.terminated, hs.evicted]
  · rw [hs.terminated]
    exact hs.nodup

/-- A watchdog over one compartment, which is probed and answers with the same heap, over and over. -/
def answering (o : WatchdogOptions) (heapUsed : ℚ) : ℕ → Watchdog
  | 0 => { compartments := [("chat", true)] }
  | n + 1 => ((answering o heapUsed n).tick o ⟨250 * n, fun _ => 0⟩).probeStat o "chat" (some heapUsed)

lemma answering_reachable (o : WatchdogOptions) (heapUsed : ℚ) (n : ℕ) :
    (Watchdog.system o).Reachable System.free (answering o heapUsed n) := by
  induction n with
  | zero => exact .start ⟨_, rfl⟩
  | succ n ih =>
    have hprobed := ih.next (e := .tick ⟨250 * n, fun _ => 0⟩) trivial rfl
    exact hprobed.next (e := .probeStat "chat" (some heapUsed)) trivial rfl

lemma answering_once : (Watchdog.system {}).Reachable (Steady {} "chat") (answering {} 1024 1) := by
  have hstart : (Watchdog.system {}).Reachable (Steady {} "chat") (answering {} 1024 0) := .start ⟨_, rfl⟩
  have hprobed := hstart.next (e := .tick ⟨250 * (0 : ℕ), fun _ => 0⟩) (by trivial) rfl
  exact hprobed.next (e := .probeStat "chat" (some 1024)) (fun _ _ _ => by decide) rfl

theorem watchdog_spares : WatchdogLaw {} (WatchdogOptions.above {} "chat") ((answering {} 1024 1).seen "chat") ∧
    (.sample true ∈ (answering {} 1024 1).seen "chat" ↔
      "chat" ∈ (answering {} 1024 1).terminations.map Prod.fst) ∧
        ((answering {} 1024 1).terminations.map Prod.fst).Nodup :=
  watchdog_law (by decide) (by decide) nofun answering_once

/-- The compartments of a manifest that declares a cadence and no memory. -/
def cadenceOnly : WatchdogOptions := { budgets := fun _ => some { intervalMs := some 50 } }

theorem undeclared_memory_unwatched :
    (Watchdog.system cadenceOnly).Reachable System.free (answering cadenceOnly 314572800 3) ∧
      ¬ WatchdogLaw cadenceOnly (cadenceOnly.above "chat") ((answering cadenceOnly 314572800 3).seen "chat") := by
  refine ⟨answering_reachable _ _ _, fun h => ?_⟩
  have hseen : (answering cadenceOnly 314572800 3).seen "chat" = [.sample false, .answer (some 314572800),
      .sample false, .answer (some 314572800), .sample false, .answer (some 314572800)] := by
    decide
  rw [hseen] at h
  have hlow := h.bounded [] [.sample false, .answer (some 314572800), .sample false, .answer (some 314572800)] [] false
    ⟨[.answer (some 314572800)], rfl⟩ (by decide) (by decide +kernel) (by simp)
  exact absurd hlow (by decide)

end Law

end VivimOmega.Tooling

import Mathlib

/-! The health loop: crash windows over the polls, quarantine, and the polls for which a compartment is muted after it. -/

namespace VivimOmega.Run

section Monitor

structure CompartmentStats where
  state : String
  crashes : ℤ

inductive HealthEventType
  | statsError | crashIncrement | quarantine | terminate | rearm
  deriving DecidableEq

structure HealthEvent where
  type : HealthEventType
  pluginId : Option String
  detail : String

structure QuarantineRecord where
  pluginId : String
  reason : String

def WINDOW_POLLS : ℕ := 3

def RING_MAX : ℕ := 200

/-- The monitor, with the `host.compartment.terminate@1` calls it has made. -/
structure HealthMonitor where
  events : List HealthEvent := []
  quarantined : List QuarantineRecord := []
  crashWindows : String → Option (List ℤ) := fun _ => none
  stateWindows : String → Option (List String) := fun _ => none
  quarantineCount : String → Option ℕ := fun _ => none
  suppress : String → Option ℕ := fun _ => none
  polls : ℕ := 0
  terminates : List String := []

/-- What a ring or a window keeps of a list that has grown. -/
def lastOf {α : Type} (n : ℕ) (xs : List α) : List α := xs.drop (xs.length - n)

namespace HealthMonitor

variable (m : HealthMonitor)

def record (type : HealthEventType) (pluginId : Option String) (detail : String) : HealthMonitor :=
  { m with events := lastOf RING_MAX (m.events ++ [⟨type, pluginId, detail⟩]) }

def resetWindows (pluginId : String) : HealthMonitor :=
  { m with
    crashWindows := Function.update m.crashWindows pluginId none
    stateWindows := Function.update m.stateWindows pluginId none }

def quarantine (pluginId reason : String) : HealthMonitor :=
  let n := (m.quarantineCount pluginId).getD 0 + 1
  let marked : HealthMonitor := { m with
    quarantineCount := Function.update m.quarantineCount pluginId (some n)
    suppress := Function.update m.suppress pluginId (some (2 ^ n))
    quarantined := m.quarantined ++ [⟨pluginId, reason⟩] }
  let recorded := (marked.resetWindows pluginId).record .quarantine (some pluginId) reason
  { recorded with terminates := recorded.terminates ++ [pluginId] }

def noRespawn : String := "(v1 has no respawn: a crashed compartment is a standing crash loop until recipe reboot)"

/-- One of the polls for which the compartment is muted. -/
def mute (pluginId : String) (muted : ℕ) : HealthMonitor :=
  if muted - 1 = 0 then
    let freed : HealthMonitor := { m with suppress := Function.update m.suppress pluginId none }
    (freed.resetWindows pluginId).record .rearm (some pluginId)
      ("monitoring re-armed after backoff of " ++ toString (2 ^ (m.quarantineCount pluginId).getD 0) ++ " polls")
  else { m with suppress := Function.update m.suppress pluginId (some (muted - 1)) }

def pushWindows (pluginId : String) (s : CompartmentStats) : HealthMonitor :=
  { m with
    crashWindows := Function.update m.crashWindows pluginId
      (some (lastOf WINDOW_POLLS ((m.crashWindows pluginId).getD [] ++ [s.crashes])))
    stateWindows := Function.update m.stateWindows pluginId
      (some (lastOf WINDOW_POLLS ((m.stateWindows pluginId).getD [] ++ [s.state]))) }

/-- What the last three crash counts, and a compartment stuck degraded, say. -/
def verdict : List ℤ → Bool → Option String
  | [first, _, last], stuckDegraded =>
    if 2 ≤ last - first then
      some ("crash-loop: crashes " ++ toString first ++ " → " ++ toString last ++ " (+" ++ toString (last - first) ++
        ") across 3 consecutive polls")
    else if 1 ≤ last - first ∧ stuckDegraded then
      some ("crash-persistence: crashes " ++ toString first ++ " → " ++ toString last ++
        " and stuck degraded without recovery " ++ noRespawn)
    else none
  | _, _ => none

def watch (pluginId : String) (s : CompartmentStats) : HealthMonitor :=
  let prev := ((m.crashWindows pluginId).getD []).getLast?.getD s.crashes
  let pushed := m.pushWindows pluginId s
  let noted :=
    if prev < s.crashes then pushed.record .crashIncrement (some pluginId)
      ("crashes " ++ toString prev ++ " → " ++ toString s.crashes ++ " (state " ++ s.state ++ ")")
    else pushed
  match verdict ((noted.crashWindows pluginId).getD [])
      (((noted.stateWindows pluginId).getD []).getLast? = some "degraded") with
  | some reason => noted.quarantine pluginId reason
  | none => noted

def observe (selfId pluginId : String) (s : CompartmentStats) : HealthMonitor :=
  if pluginId = selfId then m
  else
    let seenBefore := (m.crashWindows pluginId).isSome || (m.stateWindows pluginId).isSome
    if seenBefore = false ∧ s.state = "degraded" ∧ 1 ≤ s.crashes then
      (m.record .crashIncrement (some pluginId) ("first sight: stuck degraded with " ++ toString s.crashes ++
        " recorded crashes (observer started late)")).quarantine pluginId
          ("crash-persistence: stuck degraded with " ++ toString s.crashes ++
            " recorded crashes on first observation " ++ noRespawn)
    else
      match m.suppress pluginId with
      | some muted => m.mute pluginId muted
      | none => m.watch pluginId s

/-- The answer of a poll: each compartment once, with its stats where they are an object. -/
abbrev Stats := { l : List (String × Option CompartmentStats) // (l.map Prod.fst).Nodup }

/-- What reaches the monitor: the answer of a poll, and the answer of a terminate call. -/
inductive Event
  | stats (compartments : Stats)
  | refused (error : String)
  | terminated (pluginId detail : String)

def observeEntry (selfId : String) (m : HealthMonitor) (entry : String × Option CompartmentStats) : HealthMonitor :=
  match entry.2 with
  | some s => m.observe selfId entry.1 s
  | none => m

def step (selfId : String) (m : HealthMonitor) : Event → HealthMonitor
  | .stats compartments => compartments.1.foldl (observeEntry selfId) { m with polls := m.polls + 1 }
  | .refused error => m.record .statsError none ("host.compartment.stats@1 failed: " ++ error)
  | .terminated pluginId detail => m.record .terminate (some pluginId) detail

def run (selfId : String) (events : List Event) : HealthMonitor := events.foldl (step selfId) {}

end HealthMonitor

end Monitor

section Tracks

open HealthMonitor

/-- The monitor as one compartment sees it. -/
@[ext] structure Track where
  crashWindow : Option (List ℤ) := none
  stateWindow : Option (List String) := none
  count : ℕ := 0
  muted : Option ℕ := none
  marks : ℕ := 0
  calls : ℕ := 0

def HealthMonitor.track (m : HealthMonitor) (id : String) : Track where
  crashWindow := m.crashWindows id
  stateWindow := m.stateWindows id
  count := (m.quarantineCount id).getD 0
  muted := m.suppress id
  marks := m.quarantined.countP fun r => r.pluginId = id
  calls := m.terminates.count id

/-- Degraded with crashes. -/
def CompartmentStats.Stuck (s : CompartmentStats) : Prop := s.state = "degraded" ∧ 1 ≤ s.crashes

instance decidableStuck (s : CompartmentStats) : Decidable s.Stuck := inferInstanceAs (Decidable (_ ∧ _))

namespace Track

variable (t : Track) (s : CompartmentStats)

def quarantined : Track := ⟨none, none, t.count + 1, some (2 ^ (t.count + 1)), t.marks + 1, t.calls + 1⟩

def Unseen : Prop := t.crashWindow = none ∧ t.stateWindow = none

instance decidableUnseen : Decidable t.Unseen := inferInstanceAs (Decidable (_ ∧ _))

def pushed : Track :=
  { t with
    crashWindow := some (lastOf WINDOW_POLLS (t.crashWindow.getD [] ++ [s.crashes]))
    stateWindow := some (lastOf WINDOW_POLLS (t.stateWindow.getD [] ++ [s.state])) }

def observed : Track :=
  if t.Unseen ∧ s.Stuck then t.quarantined
  else
    match t.muted with
    | some muted => if muted - 1 = 0 then { t with crashWindow := none, stateWindow := none, muted := none }
      else { t with muted := some (muted - 1) }
    | none =>
      match verdict ((t.pushed s).crashWindow.getD []) (((t.pushed s).stateWindow.getD []).getLast? = some "degraded") with
      | some _ => t.quarantined
      | none => t.pushed s

end Track

variable {m : HealthMonitor} {id other selfId : String} {s : CompartmentStats}

@[simp] lemma track_record (type : HealthEventType) (pluginId : Option String) (detail : String) :
    (m.record type pluginId detail).track id = m.track id := by
  simp only [record, track]

lemma track_quarantine (reason : String) : (m.quarantine id reason).track id = (m.track id).quarantined := by
  simp [HealthMonitor.quarantine, resetWindows, record, track, Track.quarantined]

lemma track_quarantine_other (h : id ≠ other) (reason : String) : (m.quarantine other reason).track id = m.track id := by
  simp [HealthMonitor.quarantine, resetWindows, record, track, Function.update_of_ne h, h.symm]

lemma track_mute (muted : ℕ) : (m.mute id muted).track id =
    if muted - 1 = 0 then { m.track id with crashWindow := none, stateWindow := none, muted := none }
    else { m.track id with muted := some (muted - 1) } := by
  unfold mute
  split_ifs <;> simp [resetWindows, record, track]

lemma track_mute_other (h : id ≠ other) (muted : ℕ) : (m.mute other muted).track id = m.track id := by
  unfold mute
  split_ifs <;> simp [resetWindows, record, track, Function.update_of_ne h]

lemma track_watch : (m.watch id s).track id =
    match verdict (((m.track id).pushed s).crashWindow.getD [])
      ((((m.track id).pushed s).stateWindow.getD []).getLast? = some "degraded") with
    | some _ => (m.track id).quarantined
    | none => (m.track id).pushed s := by
  have hpushed : (m.pushWindows id s).track id = (m.track id).pushed s := by
    simp [pushWindows, track, Track.pushed]
  have hquarantined : ((m.track id).pushed s).quarantined = (m.track id).quarantined := rfl
  have hnoted : ∀ m' : HealthMonitor, m'.track id = (m.track id).pushed s →
      (match verdict ((m'.crashWindows id).getD []) (((m'.stateWindows id).getD []).getLast? = some "degraded") with
        | some reason => m'.quarantine id reason
        | none => m').track id =
      match verdict (((m.track id).pushed s).crashWindow.getD [])
        ((((m.track id).pushed s).stateWindow.getD []).getLast? = some "degraded") with
      | some _ => (m.track id).quarantined
      | none => (m.track id).pushed s := by
    intro m' hm
    have hcrash : m'.crashWindows id = ((m.track id).pushed s).crashWindow := congrArg Track.crashWindow hm
    have hstate : m'.stateWindows id = ((m.track id).pushed s).stateWindow := congrArg Track.stateWindow hm
    rw [hcrash, hstate]
    split
    · rw [track_quarantine, hm, hquarantined]
    · exact hm
  unfold watch
  dsimp only
  split_ifs
  · exact hnoted _ (by rw [track_record, hpushed])
  · exact hnoted _ hpushed

lemma track_watch_other (h : id ≠ other) : (m.watch other s).track id = m.track id := by
  have hpushed : (m.pushWindows other s).track id = m.track id := by
    simp [pushWindows, track, Function.update_of_ne h]
  unfold watch
  dsimp only
  split
  · rw [track_quarantine_other h]
    split_ifs
    · rw [track_record, hpushed]
    · exact hpushed
  · split_ifs
    · rw [track_record, hpushed]
    · exact hpushed

lemma track_observe (hself : id ≠ selfId) : (m.observe selfId id s).track id = (m.track id).observed s := by
  unfold HealthMonitor.observe Track.observed
  rw [if_neg hself]
  have hunseen : ((m.crashWindows id).isSome || (m.stateWindows id).isSome) = false ↔ (m.track id).Unseen := by
    simp [Track.Unseen, track]
  by_cases hfirst : (m.track id).Unseen ∧ s.Stuck
  · rw [if_pos hfirst, if_pos ⟨hunseen.mpr hfirst.1, hfirst.2⟩, track_quarantine, track_record]
  · rw [if_neg hfirst, if_neg fun h => hfirst ⟨hunseen.mp h.1, h.2⟩]
    have hmuted : (m.track id).muted = m.suppress id := rfl
    rw [hmuted]
    cases m.suppress id with
    | some muted => exact track_mute muted
    | none => exact track_watch

lemma track_observe_other (h : id ≠ other) : (m.observe selfId other s).track id = m.track id := by
  unfold HealthMonitor.observe
  dsimp only
  split_ifs
  · rfl
  · rw [track_quarantine_other h, track_record]
  · split
    · exact track_mute_other h _
    · exact track_watch_other h

/-- What an event shows of a compartment. -/
def HealthMonitor.Event.statsOf (id : String) : Event → Option CompartmentStats
  | .stats compartments => (compartments.1.lookup id).join
  | _ => none

def observedIf (t : Track) : Option CompartmentStats → Track
  | some s => t.observed s
  | none => t

lemma lookup_absent {entries : List (String × Option CompartmentStats)} (h : id ∉ entries.map Prod.fst) :
    entries.lookup id = none := by
  rw [List.lookup_eq_none_iff]
  intro entry hentry
  have hne : id ≠ entry.1 := fun heq => h (heq ▸ List.mem_map_of_mem hentry)
  simpa using hne

lemma track_entries {entries : List (String × Option CompartmentStats)} (hself : id ≠ selfId)
    (hkeys : (entries.map Prod.fst).Nodup) (m : HealthMonitor) :
    (entries.foldl (observeEntry selfId) m).track id = observedIf (m.track id) (entries.lookup id).join := by
  induction entries generalizing m with
  | nil => rfl
  | cons entry rest ih =>
    obtain ⟨key, stats⟩ := entry
    obtain ⟨hkey, hrest⟩ := List.nodup_cons.mp hkeys
    rw [List.foldl_cons, ih hrest]
    by_cases heq : id = key
    · subst heq
      rw [lookup_absent hkey, List.lookup_cons, beq_self_eq_true]
      cases stats with
      | none => rfl
      | some s => exact track_observe hself
    · have hother : (observeEntry selfId m (key, stats)).track id = m.track id := by
        cases stats with
        | none => rfl
        | some s => exact track_observe_other heq
      have hne : (id == key) = false := by simpa using heq
      rw [hother, List.lookup_cons, hne]

lemma track_step (hself : id ≠ selfId) (m : HealthMonitor) (e : Event) :
    (step selfId m e).track id = observedIf (m.track id) (e.statsOf id) := by
  cases e with
  | stats compartments => exact track_entries hself compartments.2 _
  | refused error => exact track_record ..
  | terminated pluginId detail => exact track_record ..

lemma run_concat (events : List Event) (e : Event) : run selfId (events ++ [e]) = step selfId (run selfId events) e :=
  List.foldl_concat ..

lemma track_concat (hself : id ≠ selfId) (events : List Event) (e : Event) :
    (run selfId (events ++ [e])).track id = observedIf ((run selfId events).track id) (e.statsOf id) := by
  rw [run_concat, track_step hself]

/-- The monitor never looks at its own compartment. -/
lemma track_self (selfId : String) (events : List Event) : (run selfId events).track selfId = {} := by
  have hentries : ∀ (entries : List (String × Option CompartmentStats)) (m : HealthMonitor),
      (entries.foldl (observeEntry selfId) m).track selfId = m.track selfId := by
    intro entries
    induction entries with
    | nil =>
      intro m
      rfl
    | cons entry rest ih =>
      intro m
      obtain ⟨key, stats⟩ := entry
      rw [List.foldl_cons, ih]
      cases stats with
      | none => rfl
      | some s =>
        by_cases heq : selfId = key
        · subst heq
          exact congrArg (track · selfId) (if_pos rfl)
        · exact track_observe_other heq
  induction events using List.reverseRecOn with
  | nil => rfl
  | append_singleton events e ih =>
    rw [run_concat, ← ih]
    cases e with
    | stats compartments => exact hentries _ _
    | refused error => exact track_record ..
    | terminated pluginId detail => exact track_record ..

end Tracks

section Backoff

open HealthMonitor

/-- How often a compartment has been quarantined. -/
def HealthMonitor.marks (m : HealthMonitor) (id : String) : ℕ := m.quarantined.countP fun r => r.pluginId = id

/-- After the n-th quarantine, the next 2^n polls that show the compartment neither quarantine nor terminate it. -/
def BacksOff (selfId : String) (events : List Event) : Prop :=
  ∀ id before e between next, before ++ e :: (between ++ [next]) <+: events →
    (run selfId before).marks id < (run selfId (before ++ [e])).marks id →
    (between.filterMap (Event.statsOf id)).length < 2 ^ (run selfId (before ++ [e])).marks id →
    (next.statsOf id).isSome = true →
    (run selfId (before ++ e :: (between ++ [next]))).marks id = (run selfId (before ++ e :: between)).marks id ∧
      (run selfId (before ++ e :: (between ++ [next]))).terminates.count id =
        (run selfId (before ++ e :: between)).terminates.count id

/-- A compartment whose crash counter is never seen to rise, and that is never seen degraded with crashes, is left alone. -/
def LeavesAlone (selfId : String) (events : List Event) : Prop :=
  ∀ id, (∀ s ∈ events.filterMap (Event.statsOf id), ¬ s.Stuck) →
    (events.filterMap (Event.statsOf id)).IsChain (fun s next => next.crashes ≤ s.crashes) →
      (run selfId events).marks id = 0 ∧ (run selfId events).terminates.count id = 0

/-- No compartment is seen degraded with crashes while it is muted. -/
def MutedUnstuck (selfId : String) (events : List Event) : Prop :=
  ∀ before e, before ++ [e] <+: events → ∀ id s, e.statsOf id = some s →
    (run selfId before).suppress id ≠ none → ¬ s.Stuck

variable {t : Track} {s : CompartmentStats} {id selfId : String} {events before between : List Event} {e : Event}

namespace Track

structure Sound (t : Track) : Prop where
  marked : t.marks = t.count
  called : t.calls = t.count
  muted : ∀ k, t.muted = some k → t.Unseen ∧ 1 ≤ k

lemma Sound.quarantined (h : t.Sound) : t.quarantined.Sound where
  marked := congrArg (· + 1) h.marked
  called := congrArg (· + 1) h.called
  muted k hk := by
    cases hk
    exact ⟨⟨rfl, rfl⟩, Nat.one_le_two_pow⟩

/-- What an observation does: it quarantines, it counts a muted poll, or it pushes the windows. -/
lemma observed_cases (t : Track) (s : CompartmentStats) :
    t.observed s = t.quarantined ∨
      (∃ k, t.muted = some k ∧ ¬ (t.Unseen ∧ s.Stuck) ∧ t.observed s =
        if k - 1 = 0 then { t with crashWindow := none, stateWindow := none, muted := none }
        else { t with muted := some (k - 1) }) ∨
      (t.muted = none ∧ t.observed s = t.pushed s) := by
  unfold observed
  split_ifs with hfirst
  · exact .inl rfl
  · split
    · next k hk => exact .inr (.inl ⟨k, hk, hfirst, rfl⟩)
    · next hk =>
      split
      · exact .inl rfl
      · exact .inr (.inr ⟨hk, rfl⟩)

lemma Sound.observed (h : t.Sound) (s : CompartmentStats) : (t.observed s).Sound := by
  obtain heq | ⟨k, hk, _, heq⟩ | ⟨hk, heq⟩ := t.observed_cases s
  · rw [heq]
    exact h.quarantined
  · rw [heq]
    split_ifs with hlast
    · exact ⟨h.marked, h.called, fun _ hnone => by cases hnone⟩
    · refine ⟨h.marked, h.called, fun k' hk' => ?_⟩
      cases hk'
      exact ⟨(h.muted k hk).1, by omega⟩
  · rw [heq]
    refine ⟨h.marked, h.called, fun k hsome => ?_⟩
    rw [show (t.pushed s).muted = t.muted from rfl, hk] at hsome
    cases hsome

/-- A muted compartment that is not stuck is counted down. -/
lemma Sound.observed_muted (h : t.Sound) {k : ℕ} (hk : t.muted = some k) (hs : ¬ s.Stuck) : t.observed s =
    if k - 1 = 0 then { t with crashWindow := none, stateWindow := none, muted := none }
    else { t with muted := some (k - 1) } := by
  unfold Track.observed
  rw [if_neg fun hfirst => hs hfirst.2, hk]

lemma Sound.observed_stuck (h : t.Sound) {k : ℕ} (hk : t.muted = some k) (hs : s.Stuck) : t.observed s = t.quarantined :=
  if_pos ⟨(h.muted k hk).1, hs⟩

end Track

lemma sound_run (hself : id ≠ selfId) (events : List Event) : ((run selfId events).track id).Sound := by
  induction events using List.reverseRecOn with
  | nil => exact ⟨rfl, rfl, fun k hk => by cases hk⟩
  | append_singleton events e ih =>
    rw [track_concat hself]
    cases e.statsOf id with
    | none => exact ih
    | some s => exact ih.observed s

lemma marks_track (m : HealthMonitor) (id : String) : m.marks id = (m.track id).marks := rfl

/-- Only an observation that quarantines adds a mark. -/
lemma quarantined_of_marks (hself : id ≠ selfId)
    (h : (run selfId before).marks id < (run selfId (before ++ [e])).marks id) :
    (run selfId (before ++ [e])).track id = ((run selfId before).track id).quarantined := by
  rw [marks_track, marks_track, track_concat hself] at h
  rw [track_concat hself]
  cases hs : e.statsOf id with
  | none =>
    rw [hs] at h
    exact absurd h (lt_irrefl _)
  | some s =>
    rw [hs] at h
    obtain heq | ⟨k, _, _, heq⟩ | ⟨_, heq⟩ := ((run selfId before).track id).observed_cases s
    · exact heq
    · rw [observedIf, heq] at h
      split_ifs at h
      · exact absurd h (lt_irrefl _)
      · exact absurd h (lt_irrefl _)
    · rw [observedIf, heq] at h
      exact absurd h (lt_irrefl _)

/-- By the polls since the quarantine: each that shows the compartment takes one from its backoff. -/
lemma muted_after {n : ℕ} (hself : id ≠ selfId) (hstart : ((run selfId before).track id).muted = some (2 ^ n))
    (hunstuck : ∀ b x, b ++ [x] <+: between → ∀ s, x.statsOf id = some s →
      ((run selfId (before ++ b)).suppress id ≠ none → ¬ s.Stuck))
    (hcount : (between.filterMap (Event.statsOf id)).length < 2 ^ n) :
    ((run selfId (before ++ between)).track id).muted = some (2 ^ n - (between.filterMap (Event.statsOf id)).length) ∧
      ((run selfId (before ++ between)).track id).marks = ((run selfId before).track id).marks := by
  induction between using List.reverseRecOn with
  | nil => simpa using hstart
  | append_singleton b x ih =>
    rw [List.filterMap_append, List.length_append] at hcount
    obtain ⟨hmuted, hmarks⟩ := ih (fun b' x' hpre => hunstuck b' x' (hpre.trans (List.prefix_append _ _))) (by omega)
    rw [← List.append_assoc, track_concat hself, List.filterMap_append, List.length_append]
    cases hs : x.statsOf id with
    | none => simpa [hs, observedIf] using ⟨hmuted, hmarks⟩
    | some s =>
      have hone : (List.filterMap (Event.statsOf id) [x]).length = 1 := by simp [hs]
      rw [hone] at hcount ⊢
      have hnot : ¬ s.Stuck := by
        refine hunstuck b x (List.prefix_refl _) s hs ?_
        rw [show (run selfId (before ++ b)).suppress id = ((run selfId (before ++ b)).track id).muted from rfl, hmuted]
        simp
      rw [observedIf, (sound_run hself _).observed_muted hmuted hnot, if_neg (by omega)]
      refine ⟨?_, hmarks⟩
      rw [Option.some.injEq]
      omega

/-- A muted compartment was quarantined, and its backoff tells how many polls have shown it since. -/
lemma muted_history (hself : id ≠ selfId) {k : ℕ} (h : ((run selfId events).track id).muted = some k) :
    ∃ before e between, events = before ++ e :: between ∧
      (run selfId before).marks id < (run selfId (before ++ [e])).marks id ∧
        (run selfId (before ++ [e])).marks id = (run selfId events).marks id ∧
          (between.filterMap (Event.statsOf id)).length + k = 2 ^ (run selfId events).marks id := by
  induction events using List.reverseRecOn generalizing k with
  | nil => cases h
  | append_singleton events x ih =>
    rw [track_concat hself] at h
    have hextend : ∀ k', ((run selfId events).track id).muted = some k' →
        (run selfId (events ++ [x])).marks id = (run selfId events).marks id →
          (List.filterMap (Event.statsOf id) [x]).length + k = k' →
            ∃ before e between, events ++ [x] = before ++ e :: between ∧
              (run selfId before).marks id < (run selfId (before ++ [e])).marks id ∧
                (run selfId (before ++ [e])).marks id = (run selfId (events ++ [x])).marks id ∧
                  (between.filterMap (Event.statsOf id)).length + k = 2 ^ (run selfId (events ++ [x])).marks id := by
      intro k' hk' hmarks hlen
      obtain ⟨before, e, between, rfl, hless, hsame, hcount⟩ := ih hk'
      refine ⟨before, e, between ++ [x], by simp, hless, hsame.trans hmarks.symm, ?_⟩
      rw [hmarks, List.filterMap_append, List.length_append, ← hcount]
      omega
    cases hs : x.statsOf id with
    | none =>
      rw [hs, observedIf] at h
      refine hextend k h ?_ (by simp [hs])
      rw [marks_track, marks_track, track_concat hself, hs, observedIf]
    | some s =>
      rw [hs, observedIf] at h
      have htrack : (run selfId (events ++ [x])).track id = ((run selfId events).track id).observed s := by
        rw [track_concat hself, hs, observedIf]
      obtain heq | ⟨k', hk', _, heq⟩ | ⟨hnone, heq⟩ := ((run selfId events).track id).observed_cases s
      · have hmarks : (run selfId (events ++ [x])).marks id = (run selfId events).marks id + 1 := by
          rw [marks_track, htrack, heq]
          rfl
        refine ⟨events, x, [], rfl, by omega, rfl, ?_⟩
        rw [heq] at h
        have hcount := (sound_run hself events).marked
        rw [← marks_track] at hcount
        rw [hmarks, hcount]
        simpa [Track.quarantined] using h.symm
      · have hmarks : (run selfId (events ++ [x])).marks id = (run selfId events).marks id := by
          rw [marks_track, htrack, heq]
          split_ifs <;> rfl
        rw [heq] at h
        split_ifs at h with hlast
        have hpos := ((sound_run hself events).muted k' hk').2
        have hk := Option.some.inj h
        exact hextend k' hk' hmarks (by simp [hs]; omega)
      · rw [heq, show (((run selfId events).track id).pushed s).muted = ((run selfId events).track id).muted from rfl,
          hnone] at h
        cases h

lemma backsOff_of_unstuck (h : MutedUnstuck selfId events) : BacksOff selfId events := by
  intro id before e between next hpre hmarked hcount hnext
  by_cases hself : id = selfId
  · subst hself
    rw [marks_track, marks_track, track_self id, track_self id] at hmarked
    exact absurd hmarked (lt_irrefl _)
  · have hstart := quarantined_of_marks hself hmarked
    have hn : (run selfId (before ++ [e])).marks id = ((run selfId before).track id).count + 1 := by
      rw [marks_track, hstart, ← (sound_run hself before).marked]
      rfl
    have hassoc : ∀ b, before ++ [e] ++ b = before ++ e :: b := by simp
    rw [hn] at hcount
    have hmuted := (muted_after hself (by rw [hstart]; rfl) (fun b x hbx s hs hmuted => ?_) hcount).1
    · obtain ⟨s, hs⟩ := Option.isSome_iff_exists.mp hnext
      rw [hassoc] at hmuted
      have hunstuck : ¬ s.Stuck := by
        refine h (before ++ e :: between) next (by simpa using hpre) id s hs ?_
        rw [show (run selfId (before ++ e :: between)).suppress id = ((run selfId (before ++ e :: between)).track id).muted
          from rfl, hmuted]
        simp
      have hconcat : before ++ e :: (between ++ [next]) = before ++ e :: between ++ [next] := by simp
      have hobserved := (sound_run hself (before ++ e :: between)).observed_muted hmuted hunstuck
      have htrack := track_concat hself (before ++ e :: between) next
      rw [hs, observedIf, hobserved] at htrack
      rw [hconcat]
      constructor
      · rw [marks_track, marks_track, htrack]
        split_ifs <;> rfl
      · have hcalls : ∀ m : HealthMonitor, m.terminates.count id = (m.track id).calls := fun _ => rfl
        rw [hcalls, hcalls, htrack]
        split_ifs <;> rfl
    · rw [hassoc] at hmuted
      refine h (before ++ e :: b) x (List.IsPrefix.trans ?_ hpre) id s hs hmuted
      rw [List.append_assoc, List.cons_append]
      exact (List.prefix_append_right_inj before).mpr (List.cons_prefix_cons.mpr
        ⟨rfl, hbx.trans (List.prefix_append _ _)⟩)

lemma unstuck_of_backsOff (h : BacksOff selfId events) : MutedUnstuck selfId events := by
  intro before next hpre id s hs hmuted hstuck
  by_cases hself : id = selfId
  · subst hself
    exact hmuted (congrArg Track.muted (track_self id before))
  · obtain ⟨k, hk⟩ := Option.ne_none_iff_exists'.mp hmuted
    have hk' : ((run selfId before).track id).muted = some k := hk
    have hsound := sound_run hself before
    obtain ⟨b, e, between, rfl, hless, hsame, hcount⟩ := muted_history hself hk'
    have hpos := (hsound.muted k hk').2
    have hconcat : b ++ e :: (between ++ [next]) = b ++ e :: between ++ [next] := by simp
    have hstill := (h id b e between next (by rwa [hconcat]) hless (by rw [hsame]; omega) (by rw [hs]; rfl)).1
    rw [hconcat, marks_track, marks_track, track_concat hself, hs, observedIf, hsound.observed_stuck hk' hstuck] at hstill
    exact absurd hstill (Nat.succ_ne_self _)

lemma lastOf_concat {α : Type} (xs : List α) (x : α) : lastOf WINDOW_POLLS (lastOf WINDOW_POLLS xs ++ [x]) =
    lastOf WINDOW_POLLS (xs ++ [x]) := by
  unfold lastOf WINDOW_POLLS
  rw [List.length_append, List.length_append, List.length_drop, List.length_singleton]
  rw [List.drop_append, List.drop_append, List.drop_drop, List.length_drop]
  congr 2 <;> omega

/-- The crash counts of a window that do not rise give no verdict. -/
lemma verdict_none {win : List ℤ} (h : win.Pairwise fun a b => b ≤ a) (stuck : Bool) : verdict win stuck = none := by
  unfold verdict
  split
  · next first middle last =>
    have hle : last ≤ first := by
      rw [List.pairwise_cons] at h
      exact h.1 last (by simp)
    rw [if_neg (by omega), if_neg (by omega)]
  · rfl

/-- By the observations: the windows are the last of them, and nothing is counted. -/
lemma leavesAlone (selfId : String) (events : List Event) : LeavesAlone selfId events := by
  intro id hunstuck hchain
  by_cases hself : id = selfId
  · subst hself
    have hmarks := congrArg Track.marks (track_self id events)
    have hcalls := congrArg Track.calls (track_self id events)
    exact ⟨hmarks, hcalls⟩
  · suffices hh : ((run selfId events).track id).marks = 0 ∧ ((run selfId events).track id).calls = 0 ∧
        ((run selfId events).track id).muted = none ∧
          ((run selfId events).track id).crashWindow.getD [] =
            lastOf WINDOW_POLLS ((events.filterMap (Event.statsOf id)).map CompartmentStats.crashes) from ⟨hh.1, hh.2.1⟩
    have hpair := (List.isChain_iff_pairwise.mp hchain)
    clear hchain
    induction events using List.reverseRecOn with
    | nil => exact ⟨rfl, rfl, rfl, rfl⟩
    | append_singleton events e ih =>
      rw [track_concat hself]
      cases hs : e.statsOf id with
      | none =>
        have hsame : (events ++ [e]).filterMap (Event.statsOf id) = events.filterMap (Event.statsOf id) := by simp [hs]
        rw [hsame] at hunstuck hpair ⊢
        exact ih hunstuck hpair
      | some s =>
        have hsome : (events ++ [e]).filterMap (Event.statsOf id) = events.filterMap (Event.statsOf id) ++ [s] := by
          simp [hs]
        rw [hsome] at hunstuck hpair ⊢
        obtain ⟨hmarks, hcalls, hmuted, hwindow⟩ := ih (fun s' hs' => hunstuck s' (List.mem_append_left _ hs'))
          (List.pairwise_append.mp hpair).1
        have hnot : ¬ s.Stuck := hunstuck s (by simp)
        have hpushed : (((run selfId events).track id).pushed s).crashWindow.getD [] =
            lastOf WINDOW_POLLS ((events.filterMap (Event.statsOf id) ++ [s]).map CompartmentStats.crashes) := by
          rw [List.map_append, List.map_cons, List.map_nil, ← lastOf_concat, ← hwindow]
          rfl
        have hfalls : (lastOf WINDOW_POLLS ((events.filterMap (Event.statsOf id) ++ [s]).map
            CompartmentStats.crashes)).Pairwise fun a b => b ≤ a :=
          List.Pairwise.sublist (List.drop_sublist _ _) (List.pairwise_map.mpr hpair)
        have hobserved : ((run selfId events).track id).observed s = ((run selfId events).track id).pushed s := by
          unfold Track.observed
          rw [if_neg fun hfirst => hnot hfirst.2, hmuted]
          dsimp only
          rw [hpushed, verdict_none hfalls]
        rw [observedIf, hobserved]
        exact ⟨hmarks, hcalls, hmuted, hpushed⟩

/-- The backoff holds in a run exactly where no compartment is seen degraded with crashes while it is muted. -/
theorem backoff_iff (selfId : String) (events : List Event) :
    (BacksOff selfId events ∧ LeavesAlone selfId events) ↔ MutedUnstuck selfId events :=
  ⟨fun h => unstuck_of_backsOff h.1, fun h => ⟨backsOff_of_unstuck h, leavesAlone selfId events⟩⟩

/-- A poll that shows a compartment degraded with crashes. -/
def stuckPoll : Event := .stats ⟨[("worker", some ⟨"degraded", 1⟩)], by decide⟩

/-- A compartment that stays degraded is quarantined at every poll. -/
theorem stuck_quarantined_twice :
    ¬ (BacksOff "vivim.run" [stuckPoll, stuckPoll] ∧ LeavesAlone "vivim.run" [stuckPoll, stuckPoll]) := by
  rw [backoff_iff]
  intro h
  exact h [stuckPoll] stuckPoll (List.prefix_refl _) "worker" ⟨"degraded", 1⟩ rfl (by decide) (by decide)

end Backoff

end VivimOmega.Run

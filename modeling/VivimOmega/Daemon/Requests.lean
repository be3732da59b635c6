import VivimOmega.Daemon.Running
import VivimOmega.Library.Transition

/-! The requests of any number of sockets, which interleave at every `await`. -/

namespace VivimOmega.Daemon

open Library

/-- A `use` request: the ok answer is kept with what ran when it was given. -/
inductive Use
  | booting (target : Target)
  | closing (target : Target) (next : Booted ℕ)
  | answered (ok : Option (Running ℕ))

namespace Use

def isClosing : Use → Bool
  | closing _ _ => true
  | _ => false

def isAnswered : Use → Bool
  | answered _ => true
  | _ => false

def saidOk : Use → Bool
  | answered (some _) => true
  | _ => false

end Use

inductive Phase
  | serving | stopping | exited
  deriving DecidableEq

/-- The daemon's process. Hosts are numbered as they were booted, uses as they came in. -/
structure Server where
  running : Running ℕ
  booted : ℕ
  shutdowns : ℕ → ℕ
  uses : List Use
  calls : ℕ
  phase : Phase
  replaced : List (ℕ × ℕ)

/-- How a boot ends: it failed, or a host came up and the digest of its recipe file could not be read, or could. -/
inductive Outcome
  | failed
  | unread
  | booted (recipeSha : String) (snapshot : SourceSnapshot) (specDir : Path)

inductive DaemonEvent
  | use (sight : Sight) (specPath recipePath : Option Path)
  | settled (u : ℕ) (outcome : Outcome)
  | closed (u : ℕ)
  | call
  | returned (ok : Bool)
  | shutdown
  | cleanedUp

namespace Server

/-- `handle` up to its first `await`. -/
def use (setting : Setting) (s : Server) (sight : Sight) (specPath recipePath : Option Path) : Server :=
  match s.running.wants setting sight specPath recipePath with
  | .error _ => { s with uses := s.uses ++ [.answered none] }
  | .ok none => { s with uses := s.uses ++ [.answered (some s.running)] }
  | .ok (some target) => { s with uses := s.uses ++ [.booting target] }

def shutDown (s : Server) (host : ℕ) : Server :=
  { s with shutdowns := Function.update s.shutdowns host (s.shutdowns host + 1) }

/-- A boot ends: its host is numbered, and the host that runs by then is told to shut down. -/
def settle (s : Server) (u : ℕ) (target : Target) : Outcome → Server
  | .failed => { s with uses := s.uses.set u (.answered none) }
  | .unread => { s with booted := s.booted + 1, uses := s.uses.set u (.answered none) }
  | .booted recipeSha snapshot specDir =>
    { s with
      booted := s.booted + 1
      uses := s.uses.set u (.closing target ⟨s.booted, recipeSha, snapshot, specDir⟩) }.shutDown s.running.host

def replace (s : Server) (u : ℕ) (target : Target) (next : Booted ℕ) : Server :=
  { s with
    running := s.running.replaceBy target next
    uses := s.uses.set u (.answered (some (s.running.replaceBy target next)))
    replaced := s.replaced ++ [(s.running.host, u)] }

def react (setting : Setting) (s : Server) (e : DaemonEvent) : Option Server :=
  if s.phase = .exited then none
  else match e with
    | .use sight specPath recipePath => some (s.use setting sight specPath recipePath)
    | .settled u outcome =>
      match s.uses[u]? with
      | some (.booting target) => some (s.settle u target outcome)
      | _ => none
    | .closed u =>
      match s.uses[u]? with
      | some (.closing target next) => some (s.replace u target next)
      | _ => none
    | .call => some { s with calls := s.calls + 1 }
    | .returned ok =>
      if s.calls = 0 then none
      else some { s with
        calls := s.calls - 1
        running := { s.running with callsServed := s.running.callsServed + if ok then 1 else 0 } }
    | .shutdown =>
      if s.phase = .serving then some ({ s with phase := .stopping }.shutDown s.running.host)
      else some { s with phase := .exited }
    | .cleanedUp => if s.phase = .stopping then some { s with phase := .exited } else none

end Server

/-- A daemon from the moment its first host has been booted. -/
def daemons (setting : Setting) : System Server DaemonEvent where
  init s := s.running.host = 0 ∧ s.booted = 1 ∧ (∀ host, s.shutdowns host = 0) ∧ s.uses = [] ∧ s.calls = 0 ∧
    s.phase = .serving ∧ s.replaced = []
  step := Server.react setting

namespace Server

/-- Nothing is under way. -/
def Quiescent (s : Server) : Prop :=
  s.phase = .serving ∧ s.calls = 0 ∧ ∀ use ∈ s.uses, use.isAnswered = true

/-- One host has not been shut down, the one that runs; the others were shut down once; and what a use was told stands,
or a later use replaced it. -/
structure OneHost (s : Server) : Prop where
  current : s.running.host < s.booted
  shutdowns : ∀ host < s.booted, s.shutdowns host = if host = s.running.host then 0 else 1
  reflected : ∀ u r, s.uses[u]? = some (.answered (some r)) →
    r.Serves s.running ∨ ∃ v > u, (r.host, v) ∈ s.replaced

/-- A boot ends while no other use waits for the shutdown of the host it replaces, with a recipe file that can be
read; and no use replaces what a later one was told. -/
def Orderly (s : Server) : DaemonEvent → Prop
  | .settled _ .unread => False
  | .settled _ (.booted _ _ _) => ∀ use ∈ s.uses, use.isClosing = false
  | .closed u => ∀ use ∈ s.uses.drop (u + 1), use.saidOk = false
  | _ => True

instance decidableOrderly (s : Server) (e : DaemonEvent) : Decidable (s.Orderly e) := by
  cases e with
  | settled u outcome => cases outcome <;> unfold Orderly <;> infer_instance
  | _ => unfold Orderly; infer_instance

instance decidableQuiescent (s : Server) : Decidable s.Quiescent := by
  unfold Quiescent
  infer_instance

/-- The use that waits for the shutdown of the host it replaces. -/
def Closing (s : Server) (u : ℕ) (next : Booted ℕ) : Prop := ∃ target, s.uses[u]? = some (.closing target next)

/-- The one host that was not shut down runs, or is about to. -/
structure Sole (s : Server) (heir : ℕ) : Prop where
  current : s.running.host < s.booted
  fresh : ∀ host ≥ s.booted, s.shutdowns host = 0
  heir_lt : heir < s.booted
  shutdowns : ∀ host < s.booted, s.shutdowns host = if host = heir then 0 else 1
  closing : ∀ u next, s.Closing u next → next.host = heir ∧ ∀ v next', s.Closing v next' → v = u
  running : s.running.host = heir ∨ ∃ u next, s.Closing u next
  reflected : ∀ u r, s.uses[u]? = some (.answered (some r)) →
    r.Serves s.running ∨ ∃ v > u, (r.host, v) ∈ s.replaced

variable {setting : Setting} {s s' : Server} {heir u v : ℕ} {target : Target} {next : Booted ℕ}

lemma getElem?_snoc {x y : Use} {uses : List Use} (h : (uses ++ [x])[u]? = some y) :
    uses[u]? = some y ∨ (u = uses.length ∧ y = x) := by
  rw [List.getElem?_append] at h
  split_ifs at h with hu
  · exact .inl h
  · have hzero : u - uses.length = 0 := by
      by_contra hne
      rw [List.getElem?_eq_none (by simp; omega)] at h
      cases h
    rw [hzero, List.getElem?_cons_zero] at h
    exact .inr ⟨by omega, (Option.some.inj h).symm⟩

lemma getElem?_set_cases {x y : Use} {uses : List Use} (h : (uses.set u x)[v]? = some y) :
    (v = u ∧ y = x) ∨ (v ≠ u ∧ uses[v]? = some y) := by
  rw [List.getElem?_set] at h
  split_ifs at h with hu hlt
  · exact .inl ⟨hu.symm, (Option.some.inj h).symm⟩
  · exact .inr ⟨fun hv => hu hv.symm, h⟩

lemma getElem?_set_self' {x y : Use} {uses : List Use} (h : uses[u]? = some y) : (uses.set u x)[u]? = some x := by
  obtain ⟨hlt, _⟩ := List.getElem?_eq_some_iff.mp h
  rw [List.getElem?_set_self hlt]

lemma sole_start (h : (daemons setting).init s) : s.Sole 0 := by
  obtain ⟨hhost, hbooted, hshutdowns, huses, _, _, _⟩ := h
  refine ⟨by omega, fun host _ => hshutdowns host, by omega, fun host hlt => ?_, ?_, .inl hhost, ?_⟩
  · rw [hshutdowns, if_pos (by omega)]
  · rintro u next ⟨target, hu⟩
    simp [huses] at hu
  · intro u r hu
    simp [huses] at hu

/-- A use comes in that boots, or is answered by what runs. -/
lemma Sole.come (h : s.Sole heir) {use : Use} (hboots : ∀ target next, use ≠ .closing target next)
    (hok : ∀ r, use = .answered (some r) → r.Serves s.running) : Sole { s with uses := s.uses ++ [use] } heir := by
  have hold : ∀ u next, Closing { s with uses := s.uses ++ [use] } u next → s.Closing u next := by
    rintro u next ⟨target, hu⟩
    obtain hu | ⟨_, hu⟩ := getElem?_snoc hu
    · exact ⟨target, hu⟩
    · exact absurd hu.symm (hboots target next)
  refine ⟨h.current, h.fresh, h.heir_lt, h.shutdowns, fun u next hu => ?_, ?_, fun u r hu => ?_⟩
  · obtain ⟨hheir, honly⟩ := h.closing u next (hold u next hu)
    exact ⟨hheir, fun v next' hv => honly v next' (hold v next' hv)⟩
  · obtain hrun | ⟨u, next, target, hu⟩ := h.running
    · exact .inl hrun
    · refine .inr ⟨u, next, target, ?_⟩
      obtain ⟨hlt, _⟩ := List.getElem?_eq_some_iff.mp hu
      rw [List.getElem?_append_left hlt]
      exact hu
  · obtain hu | ⟨_, hu⟩ := getElem?_snoc hu
    · exact h.reflected u r hu
    · exact .inl (hok r hu.symm)

lemma Sole.fail (h : s.Sole heir) (hu : s.uses[u]? = some (.booting target)) :
    Sole { s with uses := s.uses.set u (.answered none) } heir := by
  have hold : ∀ v next, Closing { s with uses := s.uses.set u (.answered none) } v next → s.Closing v next := by
    rintro v next ⟨t, hv⟩
    obtain ⟨_, hv⟩ | ⟨_, hv⟩ := getElem?_set_cases hv
    · cases hv
    · exact ⟨t, hv⟩
  refine ⟨h.current, h.fresh, h.heir_lt, h.shutdowns, fun v next hv => ?_, ?_, fun v r hv => ?_⟩
  · obtain ⟨hheir, honly⟩ := h.closing v next (hold v next hv)
    exact ⟨hheir, fun w next' hw => honly w next' (hold w next' hw)⟩
  · obtain hrun | ⟨v, next, t, hv⟩ := h.running
    · exact .inl hrun
    · refine .inr ⟨v, next, t, ?_⟩
      have hne : u ≠ v := by
        rintro rfl
        rw [hu] at hv
        cases hv
      rw [List.getElem?_set_ne hne]
      exact hv
  · obtain ⟨_, hv⟩ | ⟨_, hv⟩ := getElem?_set_cases hv
    · cases hv
    · exact h.reflected v r hv

/-- A boot ends while no other use is closing: the host that runs is shut down for the first time. -/
lemma Sole.close (h : s.Sole heir) (hu : s.uses[u]? = some (.booting target)) (hnone : ∀ v next, ¬ s.Closing v next)
    (recipeSha : String) (snapshot : SourceSnapshot) (specDir : Path) :
    Sole (s.settle u target (.booted recipeSha snapshot specDir)) s.booted := by
  have huses : (s.settle u target (.booted recipeSha snapshot specDir)).uses =
      s.uses.set u (.closing target ⟨s.booted, recipeSha, snapshot, specDir⟩) := rfl
  have hrunning : s.running.host = heir := by
    obtain hrun | ⟨v, next, hv⟩ := h.running
    · exact hrun
    · exact absurd hv (hnone v next)
  have hne : s.running.host ≠ s.booted := by have := h.current; omega
  have honly : ∀ v next, Closing (s.settle u target (.booted recipeSha snapshot specDir)) v next →
      v = u ∧ next.host = s.booted := by
    rintro v next ⟨t, hv⟩
    rw [huses] at hv
    obtain ⟨hvu, hnew⟩ | ⟨_, hold⟩ := getElem?_set_cases hv
    · cases hnew
      exact ⟨hvu, rfl⟩
    · exact absurd ⟨t, hold⟩ (hnone v next)
  refine ⟨?_, fun host hhost => ?_, Nat.lt_succ_self _, fun host hhost => ?_, fun v next hv => ?_, ?_, fun v r hv => ?_⟩
  · exact Nat.lt_succ_of_lt h.current
  · change Function.update s.shutdowns s.running.host _ host = 0
    change host ≥ s.booted + 1 at hhost
    have hcurrent := h.current
    rw [Function.update_of_ne (by omega)]
    exact h.fresh host (by omega)
  · change Function.update s.shutdowns s.running.host _ host = _
    change host < s.booted + 1 at hhost
    by_cases hold : host = s.running.host
    · rw [hold, Function.update_self, h.shutdowns _ h.current, if_pos hrunning, if_neg hne]
    · rw [Function.update_of_ne hold]
      by_cases hnew : host = s.booted
      · rw [if_pos hnew, h.fresh host (by omega)]
      · rw [if_neg hnew, h.shutdowns host (by omega), if_neg (by omega)]
  · exact ⟨(honly v next hv).2, fun w next' hw => (honly w next' hw).1.trans (honly v next hv).1.symm⟩
  · exact .inr ⟨u, _, target, getElem?_set_self' hu⟩
  · rw [huses] at hv
    obtain ⟨_, hv⟩ | ⟨_, hv⟩ := getElem?_set_cases hv
    · cases hv
    · exact h.reflected v r hv

/-- The use that was closing puts its host in place, and no later use was told otherwise. -/
lemma Sole.replace (h : s.Sole heir) (hu : s.uses[u]? = some (.closing target next))
    (hlater : ∀ use ∈ s.uses.drop (u + 1), use.saidOk = false) : Sole (s.replace u target next) heir := by
  obtain ⟨hheir, honly⟩ := h.closing u next ⟨target, hu⟩
  have hnone : ∀ v next', ¬ Closing (s.replace u target next) v next' := by
    rintro v next' ⟨t, hv⟩
    obtain ⟨_, hv⟩ | ⟨hne, hv⟩ := getElem?_set_cases hv
    · cases hv
    · exact hne (honly v next' ⟨t, hv⟩)
  have hhost : (s.replace u target next).running.host = heir := hheir
  refine ⟨?_, h.fresh, h.heir_lt, h.shutdowns, fun v next' hv => absurd hv (hnone v next'), .inl hhost, fun v r hv => ?_⟩
  · rw [hhost]
    exact h.heir_lt
  · obtain ⟨_, hv⟩ | ⟨hne, hv⟩ := getElem?_set_cases hv
    · cases hv
      exact .inl (.refl _)
    · have hlt : v < u := by
        by_contra hge
        have hmem : (.answered (some r) : Use) ∈ s.uses.drop (u + 1) := by
          apply List.mem_of_getElem? (i := v - (u + 1))
          rw [List.getElem?_drop, show u + 1 + (v - (u + 1)) = v by omega]
          exact hv
        exact Bool.noConfusion (hlater _ hmem)
      obtain hserves | ⟨w, hw, hmem⟩ := h.reflected v r hv
      · refine .inr ⟨u, hlt, ?_⟩
        rw [hserves.host_eq]
        exact List.mem_append_right _ List.mem_cons_self
      · exact .inr ⟨w, hw, List.mem_append_left _ hmem⟩

lemma Sole.count (h : s.Sole heir) (calls served : ℕ) :
    Sole { s with calls := calls, running := { s.running with callsServed := served } } heir :=
  ⟨h.current, h.fresh, h.heir_lt, h.shutdowns, h.closing, h.running, fun u r hu =>
    (h.reflected u r hu).imp_left fun hserves => hserves.count served⟩

lemma Sole.react (h : s.phase = .serving → ∃ heir, s.Sole heir) {e : DaemonEvent} (horderly : s.Orderly e)
    (hstep : s.react setting e = some s') : s'.phase = .serving → ∃ heir, s'.Sole heir := by
  intro hserving
  rw [Server.react.eq_def] at hstep
  rw [if_neg (by
    intro hexited
    rw [if_pos hexited] at hstep
    cases hstep)] at hstep
  cases e with
  | use sight specPath recipePath =>
    cases hstep
    have hbefore : s.phase = .serving := by
      rw [← hserving, Server.use]
      split <;> rfl
    obtain ⟨heir, hsole⟩ := h hbefore
    refine ⟨heir, ?_⟩
    rw [Server.use]
    split
    · exact hsole.come (by simp) (by simp)
    · refine hsole.come (by simp) fun r hr => ?_
      cases hr
      exact .refl _
    · exact hsole.come (by simp) (by simp)
  | settled u outcome =>
    dsimp only at hstep
    split at hstep
    · next target hu =>
      cases hstep
      cases outcome with
      | failed =>
        obtain ⟨heir, hsole⟩ := h hserving
        exact ⟨heir, hsole.fail hu⟩
      | unread => exact absurd horderly id
      | booted recipeSha snapshot specDir =>
        obtain ⟨heir, hsole⟩ := h hserving
        refine ⟨_, hsole.close hu ?_ recipeSha snapshot specDir⟩
        rintro v next ⟨t, hv⟩
        exact Bool.noConfusion (horderly _ (List.mem_of_getElem? hv))
    · cases hstep
  | closed u =>
    dsimp only at hstep
    split at hstep
    · next target next hu =>
      cases hstep
      obtain ⟨heir, hsole⟩ := h hserving
      exact ⟨heir, hsole.replace hu horderly⟩
    · cases hstep
  | call =>
    cases hstep
    obtain ⟨heir, hsole⟩ := h hserving
    exact ⟨heir, hsole.count _ s.running.callsServed⟩
  | returned ok =>
    dsimp only at hstep
    split at hstep
    · cases hstep
    cases hstep
    obtain ⟨heir, hsole⟩ := h hserving
    exact ⟨heir, hsole.count _ _⟩
  | shutdown =>
    dsimp only at hstep
    split_ifs at hstep
    · cases hstep
      cases hserving
    · cases hstep
      cases hserving
  | cleanedUp =>
    dsimp only at hstep
    split_ifs at hstep
    cases hstep
    cases hserving

lemma Sole.oneHost (h : s.Sole heir) (hq : s.Quiescent) : s.OneHost := by
  have hrunning : s.running.host = heir := by
    obtain hrun | ⟨u, next, target, hu⟩ := h.running
    · exact hrun
    · exact Bool.noConfusion (hq.2.2 _ (List.mem_of_getElem? hu))
  refine ⟨h.current, fun host hlt => ?_, h.reflected⟩
  rw [hrunning]
  exact h.shutdowns host hlt

/-- In a run whose boots and replacements are orderly, every quiescent state has one live host, the one that runs. -/
theorem one_live_host (h : (daemons setting).Reachable Orderly s) (hq : s.Quiescent) : s.OneHost := by
  have hsole : s.phase = .serving → ∃ heir, s.Sole heir :=
    h.invariant (P := fun s => s.phase = .serving → ∃ heir, s.Sole heir) (fun s hs _ => ⟨0, sole_start hs⟩)
      (fun _ _ _ _ hs horderly hstep => Sole.react hs horderly hstep)
  obtain ⟨heir, hsole⟩ := hsole hq.1
  exact hsole.oneHost hq

/-- What is booted from a spec file that is found as it was named, with a digest that says which boot it was. -/
def specSight : Sight where
  recipeSha _ := .error "ENOENT"
  snapshot _ := .ok .empty

def specBooted (n : ℕ) : Outcome := .booted ("sha" ++ toString n) .empty []

def atStart : Server :=
  ⟨⟨0, none, "sha", .empty, [], 0⟩, 1, fun _ => 0, [], 0, .serving, []⟩

def specSetting : Setting := ⟨["spine.json"], []⟩

lemma init_atStart : (daemons specSetting).init atStart := ⟨rfl, rfl, fun _ => rfl, rfl, rfl, rfl, rfl⟩

/-- A use boots another spec, and the daemon is quiet again. -/
theorem one_live_host_reboot : ∃ s, (daemons specSetting).Reachable Orderly s ∧ s.running.host = 1 ∧ s.booted = 2 ∧
    s.OneHost := by
  have hrun : ((daemons specSetting).exec Orderly atStart
      [.use specSight (some ["notes.json"]) none, .settled 0 (specBooted 1), .closed 0]).map
        (fun s => (s.running.host, s.booted, decide s.Quiescent)) = some (1, 2, true) := by decide
  obtain ⟨s, hexec, hresult⟩ := Option.map_eq_some_iff.mp hrun
  simp only [Prod.mk.injEq, decide_eq_true_eq] at hresult
  obtain ⟨hhost, hbooted, hquiet⟩ := hresult
  have hreach := System.exec_reachable init_atStart hexec
  exact ⟨s, hreach, hhost, hbooted, one_live_host hreach hquiet⟩

/-- Two uses that reboot at once: both shut the first host down, and the host of the first use is left running. -/
theorem hosts_left_running : ¬ ∀ setting s, (daemons setting).Reachable System.free s → s.Quiescent → s.OneHost := by
  intro h
  have hrun : ((daemons specSetting).exec System.free atStart
      [.use specSight (some ["notes.json"]) none, .use specSight (some ["mail.json"]) none, .settled 0 (specBooted 1),
        .settled 1 (specBooted 2), .closed 0, .closed 1]).map
          (fun s => (s.running.host, s.booted, s.shutdowns 1, decide s.Quiescent)) = some (2, 3, 0, true) := by
    decide
  obtain ⟨s, hexec, hresult⟩ := Option.map_eq_some_iff.mp hrun
  simp only [Prod.mk.injEq, decide_eq_true_eq] at hresult
  obtain ⟨hhost, hbooted, hnever, hquiet⟩ := hresult
  have hone := h specSetting s (System.exec_reachable init_atStart hexec) hquiet
  have hleft := hone.shutdowns 1 (by omega)
  rw [hnever, hhost, if_neg (by decide)] at hleft
  cases hleft

end Server

end VivimOmega.Daemon

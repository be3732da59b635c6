import VivimOmega.Library.Transition

/-! The warm isolates of a daemon, and the compartments that the host checks out of them. -/

namespace VivimOmega.Daemon

open Library

/-- What a worker posts: its answer to an assignment, which carries an error where the import failed, or anything else. -/
inductive WorkerMessage
  | assigned (failed : Bool)
  | other
  deriving DecidableEq

/-- A worker thread: the assignments on their way to it, the code that it has imported, and what it has posted. -/
structure Isolate where
  alive : Bool
  inbox : List String
  assigned : Bool
  loaded : List String
  outbox : List WorkerMessage
  deriving DecidableEq

/-- A worker that runs `poolboot.ts`. -/
def Isolate.parked : Isolate := ⟨true, [], false, [], []⟩

/-- A worker that runs a plugin's entry from its start. -/
def Isolate.cold (entry : String) : Isolate := ⟨true, [], true, [entry], []⟩

/-- The message handler of `poolboot.ts`. -/
def Isolate.receive (i : Isolate) : Option Isolate :=
  match i.alive, i.inbox with
  | true, entry :: rest =>
    if i.assigned then some { i with inbox := rest }
    else some { i with inbox := rest, assigned := true, loaded := i.loaded ++ [entry] }
  | _, _ => none

/-- A worker without code posts nothing. -/
def Isolate.post (i : Isolate) (m : WorkerMessage) : Option Isolate :=
  if i.alive = true ∧ i.loaded ≠ [] then some { i with outbox := i.outbox ++ [m] } else none

def Isolate.terminate (i : Isolate) : Isolate := { i with alive := false }

structure IsolatePool where
  size : ℕ
  parked : List ℕ
  shut : Bool
  checkouts : ℕ
  hits : ℕ
  coldFallbacks : ℕ
  assignFailures : ℕ
  deriving DecidableEq

def IsolatePool.new (size : ℕ) : IsolatePool := ⟨size, [], false, 0, 0, 0, 0⟩

/-- A call of `checkoutCompartment`: it waits for a parked worker's answer, or it returned a compartment around a worker,
or it threw. -/
inductive Checkout
  | assigning (entry : String) (worker : ℕ)
  | compartment (entry : String) (worker : ℕ) (pooled : Bool)
  | thrown
  deriving DecidableEq

def Checkout.worker? : Checkout → Option ℕ
  | .assigning _ w => some w
  | .compartment _ w _ => some w
  | .thrown => none

@[simp] lemma Checkout.worker?_assigning (entry : String) (w : ℕ) : (assigning entry w).worker? = some w := rfl

@[simp] lemma Checkout.worker?_compartment (entry : String) (w : ℕ) (pooled : Bool) :
    (compartment entry w pooled).worker? = some w := rfl

@[simp] lemma Checkout.worker?_thrown : thrown.worker? = none := rfl

/-- The workers that were created, by their numbers, with the pool and the calls of the host. -/
structure Isolates where
  pool : IsolatePool
  created : ℕ
  isolate : ℕ → Isolate
  calls : List Checkout

namespace Isolates

variable (s : Isolates)

def put (w : ℕ) (i : Isolate) : Isolates := { s with isolate := Function.update s.isolate w i }

def park : Isolates :=
  { s with
    pool := { s.pool with parked := s.pool.parked ++ [s.created] }
    created := s.created + 1
    isolate := Function.update s.isolate s.created .parked }

/-- The loop ends when the stock is full, or when the constructor of a worker throws after `k` successes. -/
def refill : ℕ → Isolates → Isolates
  | 0, s => s
  | k + 1, s => if s.pool.shut = false ∧ s.pool.parked.length < s.pool.size then refill k s.park else s

/-- The cold path, which throws when there is no worker to be had. -/
def spawnCompartment (entry : String) (cold : Bool) : Isolates × Checkout :=
  if cold then
    ({ s with created := s.created + 1, isolate := Function.update s.isolate s.created (.cold entry) },
      .compartment entry s.created false)
  else (s, .thrown)

def call (r : Isolates × Checkout) : Isolates := { r.1 with calls := r.1.calls ++ [r.2] }

def settle (c : ℕ) (r : Isolates × Checkout) : Isolates := { r.1 with calls := r.1.calls.set c r.2 }

/-- The `catch` of `acquire`. -/
def assignFailed (w : ℕ) : Isolates :=
  { s with pool := { s.pool with assignFailures := s.pool.assignFailures + 1 } }.put w (s.isolate w).terminate

def asked : Isolates := { s with pool := { s.pool with checkouts := s.pool.checkouts + 1 } }

def popped : Isolates := { s with pool := { s.pool with parked := s.pool.parked.dropLast } }

def fellBack : Isolates := { s with pool := { s.pool with coldFallbacks := s.pool.coldFallbacks + 1 } }

def hit : Isolates := { s with pool := { s.pool with hits := s.pool.hits + 1 } }

/-- `acquire` up to the assignment of the worker that it found. -/
def take (k : ℕ) : Isolates × Option ℕ :=
  if s.pool.shut then (s, none)
  else
    match s.pool.parked.getLast? with
    | none => ((refill k s.asked).fellBack, none)
    | some w => ((refill k s.asked.popped).hit, some w)

def assign (w : ℕ) (entry : String) : Isolates :=
  s.put w { s.isolate w with inbox := (s.isolate w).inbox ++ [entry] }

/-- `checkoutCompartment` up to its `await`: `posted` is `false` where `postMessage` throws. -/
def checkout (entry : String) (k : ℕ) (posted cold : Bool) : Isolates :=
  match s.take k with
  | (s, none) => call (s.spawnCompartment entry cold)
  | (s, some w) =>
    if posted then call (s.assign w entry, .assigning entry w)
    else call ((s.assignFailed w).spawnCompartment entry cold)

/-- `onMessage`, on the oldest message that the worker of a waiting call has posted. -/
def hear (c : ℕ) (cold : Bool) : Option Isolates :=
  match s.calls[c]? with
  | some (.assigning entry w) =>
    match (s.isolate w).outbox with
    | [] => none
    | m :: rest =>
      let s := s.put w { s.isolate w with outbox := rest }
      match m with
      | .other => some s
      | .assigned false => some (settle c (s, .compartment entry w true))
      | .assigned true => some (settle c ((s.assignFailed w).spawnCompartment entry cold))
  | _ => none

def timeout (c : ℕ) (cold : Bool) : Option Isolates :=
  match s.calls[c]? with
  | some (.assigning entry w) => some (settle c ((s.assignFailed w).spawnCompartment entry cold))
  | _ => none

def shutdown : Isolates :=
  { s with
    pool := { s.pool with shut := true, parked := [] }
    isolate := fun w => if w ∈ s.pool.parked then (s.isolate w).terminate else s.isolate w }

end Isolates

inductive IsolateEvent
  | start (k : ℕ)
  | checkout (entry : String) (k : ℕ) (posted cold : Bool)
  | receive (w : ℕ)
  | post (w : ℕ) (m : WorkerMessage)
  | hear (c : ℕ) (cold : Bool)
  | timeout (c : ℕ) (cold : Bool)
  | exit (w : ℕ)
  | shutdown

def Isolates.react (s : Isolates) : IsolateEvent → Option Isolates
  | .start k => some (Isolates.refill k s)
  | .checkout entry k posted cold => some (s.checkout entry k posted cold)
  | .receive w => (s.isolate w).receive.map (s.put w)
  | .post w m => ((s.isolate w).post m).map (s.put w)
  | .hear c cold => s.hear c cold
  | .timeout c cold => s.timeout c cold
  | .exit w => if w < s.created then some (s.put w (s.isolate w).terminate) else none
  | .shutdown => some s.shutdown

/-- A daemon's pool of the given size, its workers and its host. -/
def isolates (size : ℕ) : System Isolates IsolateEvent where
  init s := s = ⟨.new size, 0, fun _ => .parked, []⟩
  step := Isolates.react

namespace Isolate

variable {i i' : Isolate} {entry : String}

def Blank (i : Isolate) : Prop := i.inbox = [] ∧ i.loaded = [] ∧ i.outbox = [] ∧ i.assigned = false

/-- The entry is on its way to the worker, or the worker has begun to import it, and there is no other. -/
structure Given (entry : String) (i : Isolate) : Prop where
  entry : i.inbox ++ i.loaded = [entry]
  assigned : i.assigned = true ↔ i.loaded ≠ []
  posted : i.outbox ≠ [] → i.loaded ≠ []

def Running (entry : String) (i : Isolate) : Prop := i.inbox = [] ∧ i.loaded = [entry]

/-- One step of a worker by itself keeps what it is to the pool and to the host. -/
structure Keeps (i i' : Isolate) : Prop where
  alive : i'.alive = true → i.alive = true
  blank : Blank i → Blank i'
  given : ∀ entry, Given entry i → Given entry i'
  running : ∀ entry, Running entry i → Running entry i'

lemma Given.loaded (h : Given entry i) (hposted : i.outbox ≠ []) : Running entry i := by
  have hloaded := h.posted hposted
  obtain ⟨hone, hsome⟩ | ⟨hone, hsome⟩ := List.append_eq_singleton_iff.mp h.entry
  · exact ⟨hone, hsome⟩
  · exact absurd hsome hloaded

lemma keeps_receive (h : i.receive = some i') : Keeps i i' := by
  obtain ⟨alive, inbox, assigned, loaded, outbox⟩ := i
  cases alive with
  | false => simp [receive] at h
  | true =>
    cases inbox with
    | nil => simp [receive] at h
    | cons e rest =>
      constructor
      · simp
      · intro hblank
        simp [Blank] at hblank
      · intro entry hgiven
        obtain ⟨hone, hassigned, hposted⟩ := hgiven
        obtain ⟨rfl, rfl, rfl⟩ : e = entry ∧ rest = [] ∧ loaded = [] := by simpa using hone
        obtain rfl : assigned = false := by simpa using hassigned
        obtain rfl : outbox = [] := by simpa using hposted
        obtain rfl : _ = i' := by simpa [receive] using h
        constructor <;> simp
      · intro entry hrunning
        simp [Running] at hrunning

lemma keeps_post {m : WorkerMessage} (h : i.post m = some i') : Keeps i i' := by
  simp only [post, Option.ite_none_right_eq_some, Option.some.injEq] at h
  obtain ⟨⟨halive, hloaded⟩, rfl⟩ := h
  constructor
  · simp [halive]
  · intro hblank
    exact absurd hblank.2.1 hloaded
  · intro entry hgiven
    exact ⟨hgiven.entry, hgiven.assigned, fun _ => hloaded⟩
  · intro entry hrunning
    exact hrunning

lemma keeps_terminate : Keeps i i.terminate := by
  constructor
  · simp [terminate]
  · intro hblank
    exact hblank
  · intro entry hgiven
    exact ⟨hgiven.entry, hgiven.assigned, hgiven.posted⟩
  · intro entry hrunning
    exact hrunning

lemma keeps_heard {m : WorkerMessage} {rest : List WorkerMessage} (h : i.outbox = m :: rest) :
    Keeps i { i with outbox := rest } := by
  constructor
  · simp
  · intro hblank
    simp [Blank, h] at hblank
  · intro entry hgiven
    exact ⟨hgiven.entry, hgiven.assigned, fun _ => hgiven.posted (by simp [h])⟩
  · intro entry hrunning
    exact hrunning

end Isolate

/-- What the worker of a call has to be. -/
def Checkout.Fits (i : Isolate) : Checkout → Prop
  | .assigning entry _ => i.Given entry
  | .compartment entry _ _ => i.Running entry
  | .thrown => True

def Checkout.pooled : Checkout → Bool
  | .assigning _ _ => true
  | .compartment _ _ pooled => pooled
  | .thrown => false

namespace Isolates

/-- The workers by their places: the stock, the worker between the stock and a call, and those of the calls. -/
def placed (held : Option ℕ) (s : Isolates) : List ℕ :=
  s.pool.parked ++ (held.toList ++ s.calls.filterMap Checkout.worker?)

structure Sound (held : Option ℕ) (s : Isolates) : Prop where
  once : (s.placed held).Nodup
  known : ∀ w ∈ s.placed held, w < s.created
  kept : ∀ w < s.created, (s.isolate w).alive = true → w ∈ s.placed held
  blank : ∀ w ∈ s.pool.parked, (s.isolate w).Blank
  fits : ∀ a ∈ s.calls, ∀ w, a.worker? = some w → a.Fits (s.isolate w)
  stock : s.pool.parked.length ≤ s.pool.size
  closed : s.pool.shut = true → s.pool.parked = []

/-- Every checkout found a worker or fell back, and every worker found was handed over, is awaited, failed, or is in
hand. -/
structure Tally (held : Option ℕ) (s : Isolates) : Prop where
  checkouts : s.pool.checkouts = s.pool.hits + s.pool.coldFallbacks
  hits : s.pool.hits = s.calls.countP Checkout.pooled + s.pool.assignFailures + held.toList.length

variable {s : Isolates} {held : Option ℕ} {w c k : ℕ} {i : Isolate} {a : Checkout} {entry : String} {cold : Bool}

lemma Sound.put (h : s.Sound held) (hkeeps : (s.isolate w).Keeps i) : (s.put w i).Sound held where
  once := h.once
  known := h.known
  kept v hv halive := by
    apply h.kept v hv
    by_cases hvw : v = w
    · subst hvw
      apply hkeeps.alive
      simpa [Isolates.put] using halive
    · simpa [Isolates.put, hvw] using halive
  blank v hv := by
    by_cases hvw : v = w
    · subst hvw
      simpa [Isolates.put] using hkeeps.blank (h.blank _ hv)
    · simpa [Isolates.put, hvw] using h.blank _ hv
  fits b hb v hv := by
    have hfits := h.fits b hb v hv
    by_cases hvw : v = w
    · subst hvw
      cases b with
      | assigning entry _ => simpa [Isolates.put, Checkout.Fits] using hkeeps.given _ hfits
      | compartment entry _ _ => simpa [Isolates.put, Checkout.Fits] using hkeeps.running _ hfits
      | thrown => trivial
    · simpa [Isolates.put, hvw] using hfits
  stock := h.stock
  closed := h.closed

lemma blank_parked : Isolate.parked.Blank := by
  simp [Isolate.Blank, Isolate.parked]

lemma placed_park : (s.park.placed held).Perm (s.created :: s.placed held) := by
  simp only [placed, park, List.append_assoc, List.singleton_append]
  exact List.perm_middle

lemma Sound.park (h : s.Sound held) (hopen : s.pool.shut = false) (hroom : s.pool.parked.length < s.pool.size) :
    s.park.Sound held where
  once := by
    rw [placed_park.nodup_iff, List.nodup_cons]
    exact ⟨fun hmem => (h.known _ hmem).false, h.once⟩
  known v hv := by
    rw [placed_park.mem_iff, List.mem_cons] at hv
    obtain rfl | hold := hv
    · simp [Isolates.park]
    · exact Nat.lt_succ_of_lt (h.known v hold)
  kept v hv halive := by
    rw [placed_park.mem_iff, List.mem_cons]
    by_cases hvw : v = s.created
    · exact .inl hvw
    · refine .inr (h.kept v (by simp [Isolates.park] at hv; omega) ?_)
      simpa [Isolates.park, hvw] using halive
  blank v hv := by
    by_cases hvw : v = s.created
    · subst hvw
      simpa [Isolates.park] using blank_parked
    · have hold : v ∈ s.pool.parked := by simpa [Isolates.park, hvw] using hv
      simpa [Isolates.park, hvw] using h.blank v hold
  fits b hb v hv := by
    have hmem : v ∈ s.placed held := by
      simp only [placed, List.mem_append, List.mem_filterMap]
      exact .inr (.inr ⟨b, hb, hv⟩)
    have hvw : v ≠ s.created := (h.known v hmem).ne
    simpa [Isolates.park, hvw] using h.fits b hb v hv
  stock := by simpa [Isolates.park] using hroom
  closed hshut := by simp [Isolates.park, hopen] at hshut

lemma Sound.refill (h : s.Sound held) : (refill k s).Sound held := by
  induction k generalizing s with
  | zero => exact h
  | succ k ih =>
    simp only [Isolates.refill]
    split_ifs with hroom
    · exact ih (h.park hroom.1 hroom.2)
    · exact h

/-- A refill touches the stock alone. -/
lemma refill_same : (refill k s).pool.size = s.pool.size ∧ (refill k s).pool.shut = s.pool.shut ∧
    (refill k s).pool.checkouts = s.pool.checkouts ∧ (refill k s).pool.hits = s.pool.hits ∧
    (refill k s).pool.coldFallbacks = s.pool.coldFallbacks ∧
    (refill k s).pool.assignFailures = s.pool.assignFailures ∧ (refill k s).calls = s.calls := by
  induction k generalizing s with
  | zero => simp [refill]
  | succ k ih =>
    simp only [refill]
    split_ifs
    · exact ih
    · simp

lemma Sound.counted (h : s.Sound held) (checkouts hits coldFallbacks assignFailures : ℕ) :
    Sound held { s with pool :=
      ⟨s.pool.size, s.pool.parked, s.pool.shut, checkouts, hits, coldFallbacks, assignFailures⟩ } :=
  ⟨h.once, h.known, h.kept, h.blank, h.fits, h.stock, h.closed⟩

/-- Who is placed is the same after a step that only moves workers from one place to another. -/
lemma Sound.move {t : Isolates} {held' : Option ℕ} (h : s.Sound held)
    (hplaced : (t.placed held').Perm (s.placed held)) (hcreated : t.created = s.created)
    (hisolate : t.isolate = s.isolate) (hparked : ∀ w ∈ t.pool.parked, w ∈ s.pool.parked)
    (hfits : ∀ a ∈ t.calls, ∀ w, a.worker? = some w → a.Fits (s.isolate w))
    (hstock : t.pool.parked.length ≤ t.pool.size) (hclosed : t.pool.shut = true → t.pool.parked = []) :
    t.Sound held' where
  once := hplaced.nodup_iff.mpr h.once
  known w hw := by
    rw [hcreated]
    exact h.known w (hplaced.mem_iff.mp hw)
  kept w hw halive := by
    apply hplaced.mem_iff.mpr
    apply h.kept w (hcreated ▸ hw)
    rwa [hisolate] at halive
  blank w hw := by
    rw [hisolate]
    exact h.blank w (hparked w hw)
  fits a ha w hw := by
    rw [hisolate]
    exact hfits a ha w hw
  stock := hstock
  closed := hclosed

lemma Sound.pop (h : s.Sound none) (hlast : s.pool.parked.getLast? = some w) :
    Sound (some w) { s with pool := { s.pool with parked := s.pool.parked.dropLast } } := by
  have hparked : s.pool.parked.dropLast ++ [w] = s.pool.parked := List.dropLast_append_getLast? w hlast
  apply h.move
  · simp only [placed, Option.toList_some, Option.toList_none, List.nil_append]
    rw [← List.append_assoc, hparked]
  · rfl
  · rfl
  · intro v hv
    exact List.mem_of_mem_dropLast hv
  · exact h.fits
  · have hstock := h.stock
    simp only [List.length_dropLast]
    omega
  · intro hshut
    simp [h.closed hshut]

lemma Sound.call (h : s.Sound a.worker?) (hfits : ∀ w, a.worker? = some w → a.Fits (s.isolate w)) :
    (Isolates.call (s, a)).Sound none := by
  apply h.move
  · simp only [placed, Isolates.call, Option.toList_none, List.nil_append, List.filterMap_append]
    apply List.Perm.append_left
    cases hw : a.worker? with
    | none => simp [hw]
    | some w => simp [hw]
  · rfl
  · rfl
  · exact fun _ hv => hv
  · intro b hb w hw
    obtain hold | hnew := List.mem_append.mp hb
    · exact h.fits b hold w hw
    · obtain rfl := List.mem_singleton.mp hnew
      exact hfits w hw
  · exact h.stock
  · exact h.closed

lemma workers_set {calls : List Checkout} {b : Checkout} (h : calls[c]? = some b) :
    ∃ l r, calls.filterMap Checkout.worker? = l ++ (b.worker?.toList ++ r) ∧
      ∀ a, (calls.set c a).filterMap Checkout.worker? = l ++ ((Checkout.worker? a).toList ++ r) := by
  obtain ⟨hc, hb⟩ := List.getElem?_eq_some_iff.mp h
  have hcons : ∀ a (l : List Checkout),
      (a :: l).filterMap Checkout.worker? = a.worker?.toList ++ l.filterMap Checkout.worker? := by
    intro a l
    cases hw : a.worker? <;> simp [hw]
  refine ⟨(calls.take c).filterMap Checkout.worker?, (calls.drop (c + 1)).filterMap Checkout.worker?, ?_, fun a => ?_⟩
  · rw [← hcons, ← List.filterMap_append, ← hb, List.getElem_cons_drop, List.take_append_drop]
  · rw [List.set_eq_take_append_cons_drop, if_pos hc, List.filterMap_append, hcons]

/-- The worker of a call that is over is between two places. -/
lemma Sound.release (h : s.Sound none) (hc : s.calls[c]? = some (.assigning entry w)) :
    (settle c (s, .thrown)).Sound (some w) := by
  obtain ⟨l, r, hcalls, hset⟩ := workers_set hc
  apply h.move
  · simp only [placed, settle, hset, hcalls]
    apply List.Perm.append_left
    simp only [Checkout.worker?_assigning, Checkout.worker?_thrown, Option.toList_none, Option.toList_some,
      List.nil_append, List.singleton_append]
    exact List.perm_middle.symm
  · rfl
  · rfl
  · exact fun _ hv => hv
  · intro b hb v hv
    rcases List.mem_or_eq_of_mem_set hb with hold | rfl
    · exact h.fits b hold v hv
    · trivial
  · exact h.stock
  · exact h.closed

lemma Sound.fill (h : s.Sound a.worker?) (hc : s.calls[c]? = some .thrown)
    (hfits : ∀ w, a.worker? = some w → a.Fits (s.isolate w)) : (settle c (s, a)).Sound none := by
  obtain ⟨l, r, hcalls, hset⟩ := workers_set hc
  apply h.move
  · simp only [placed, settle, hset, hcalls]
    apply List.Perm.append_left
    simp only [Checkout.worker?_thrown, Option.toList_none, List.nil_append]
    rw [← List.append_assoc, ← List.append_assoc]
    apply List.Perm.append_right
    exact List.perm_append_comm
  · rfl
  · rfl
  · exact fun _ hv => hv
  · intro b hb v hv
    rcases List.mem_or_eq_of_mem_set hb with hold | rfl
    · exact h.fits b hold v hv
    · exact hfits v hv
  · exact h.stock
  · exact h.closed

lemma Sound.forget (h : s.Sound (some w)) (hdead : (s.isolate w).alive = false) : s.Sound none := by
  have hmem : ∀ v, v ∈ s.placed (some w) ↔ v = w ∨ v ∈ s.placed none := by
    intro v
    simp only [placed, List.mem_append, Option.mem_toList, Option.some.injEq, reduceCtorEq]
    tauto
  constructor
  · refine h.once.sublist ?_
    apply List.Sublist.append_left
    exact (List.nil_sublist _).append_right _
  · intro v hv
    exact h.known v ((hmem v).mpr (.inr hv))
  · intro v hv halive
    rcases (hmem v).mp (h.kept v hv halive) with rfl | hold
    · simp [hdead] at halive
    · exact hold
  · exact h.blank
  · exact h.fits
  · exact h.stock
  · exact h.closed

variable (entry cold) in
/-- A worker of the cold path runs its entry, and is in no place yet. -/
lemma Sound.spawnCompartment (h : s.Sound none) :
    (s.spawnCompartment entry cold).1.Sound (s.spawnCompartment entry cold).2.worker? ∧
      ∀ w, (s.spawnCompartment entry cold).2.worker? = some w →
        (s.spawnCompartment entry cold).2.Fits ((s.spawnCompartment entry cold).1.isolate w) := by
  cases cold with
  | false => exact ⟨h, by simp [Isolates.spawnCompartment]⟩
  | true =>
    have hplaced : ∀ v, v ∈ s.placed (some s.created) ↔ v = s.created ∨ v ∈ s.placed none := by
      intro v
      simp only [placed, List.mem_append, Option.mem_toList, Option.some.injEq, reduceCtorEq]
      tauto
    have hne : ∀ v ∈ s.placed none, v ≠ s.created := fun v hv => (h.known v hv).ne
    constructor
    · constructor
      · have hperm : (s.placed (some s.created)).Perm (s.created :: s.placed none) := by
          simp only [placed, Option.toList_some, Option.toList_none, List.singleton_append, List.nil_append]
          exact List.perm_middle
        exact hperm.nodup_iff.mpr (List.nodup_cons.mpr ⟨fun hmem => hne _ hmem rfl, h.once⟩)
      · intro v hv
        rcases (hplaced v).mp hv with rfl | hold
        · exact Nat.lt_succ_self _
        · exact Nat.lt_succ_of_lt (h.known v hold)
      · intro v hv halive
        apply (hplaced v).mpr
        by_cases hvw : v = s.created
        · exact .inl hvw
        · refine .inr (h.kept v (by simp [Isolates.spawnCompartment] at hv; omega) ?_)
          simpa [Isolates.spawnCompartment, hvw] using halive
      · intro v hv
        have hvw : v ≠ s.created := hne v (List.mem_append_left _ hv)
        simpa [Isolates.spawnCompartment, hvw] using h.blank v hv
      · intro b hb v hv
        have hmem : v ∈ s.placed none := by
          simp only [placed, List.mem_append, List.mem_filterMap]
          exact .inr (.inr ⟨b, hb, hv⟩)
        simpa [Isolates.spawnCompartment, hne v hmem] using h.fits b hb v hv
      · exact h.stock
      · exact h.closed
    · intro w hw
      obtain rfl : s.created = w := by simpa [Isolates.spawnCompartment] using hw
      simp [Isolates.spawnCompartment, Checkout.Fits, Isolate.Running, Isolate.cold]

lemma Sound.assignFailed (h : s.Sound held) : (s.assignFailed w).Sound held :=
  (h.counted _ _ _ _).put Isolate.keeps_terminate

lemma assignFailed_dead : ((s.assignFailed w).isolate w).alive = false := by
  simp [assignFailed, put, Isolate.terminate]

/-- The cold path of a call whose worker failed. -/
lemma Sound.fallback (h : s.Sound none) (hc : s.calls[c]? = some (.assigning entry w)) :
    (settle c ((s.assignFailed w).spawnCompartment entry cold)).Sound none := by
  have hfree : (settle c (s.assignFailed w, .thrown)).Sound none :=
    (h.assignFailed.release hc).forget assignFailed_dead
  obtain ⟨hspawn, hfits⟩ := hfree.spawnCompartment entry cold
  have hthrown : ((settle c (s.assignFailed w, .thrown)).spawnCompartment entry cold).1.calls[c]? = some .thrown := by
    have hlt : c < s.calls.length := (List.getElem?_eq_some_iff.mp hc).1
    cases cold <;> simp [Isolates.spawnCompartment, settle, Isolates.assignFailed, Isolates.put, hlt]
  have hsettle := hspawn.fill hthrown hfits
  have hsame : settle c ((settle c (s.assignFailed w, .thrown)).spawnCompartment entry cold) =
      settle c ((s.assignFailed w).spawnCompartment entry cold) := by
    cases cold <;> simp [Isolates.spawnCompartment, settle]
  rwa [Prod.mk.eta, hsame] at hsettle

lemma Sound.hear {t : Isolates} (h : s.Sound none) (ht : s.hear c cold = some t) : t.Sound none := by
  unfold Isolates.hear at ht
  split at ht
  · rename_i entry w hc
    split at ht
    · cases ht
    · rename_i m rest hout
      have hheard := h.put (Isolate.keeps_heard hout)
      cases m with
      | other =>
        cases ht
        exact hheard
      | assigned failed =>
        cases failed with
        | true =>
          cases ht
          exact hheard.fallback hc
        | false =>
          cases ht
          have hgiven : (s.isolate w).Given entry := h.fits _ (List.mem_of_getElem? hc) w rfl
          have hrunning : (s.isolate w).Running entry := hgiven.loaded (by simp [hout])
          have hlt : c < s.calls.length := (List.getElem?_eq_some_iff.mp hc).1
          have hfill := (hheard.release hc).fill (c := c) (a := .compartment entry w true)
            (by simp [settle, Isolates.put, hlt]) (by
              intro v hv
              obtain rfl : w = v := by simpa using hv
              simpa [settle, Isolates.put, Checkout.Fits, Isolate.Running] using hrunning)
          simpa [settle] using hfill
  · cases ht

lemma Sound.timeout {t : Isolates} (h : s.Sound none) (ht : s.timeout c cold = some t) : t.Sound none := by
  unfold Isolates.timeout at ht
  split at ht
  · rename_i entry w hc
    cases ht
    exact h.fallback hc
  · cases ht

lemma Sound.shutdown (h : s.Sound none) : s.shutdown.Sound none where
  once := h.once.sublist (List.sublist_append_right _ _)
  known w hw := h.known w (List.mem_append_right _ hw)
  kept w hw halive := by
    by_cases hparked : w ∈ s.pool.parked
    · simp [Isolates.shutdown, hparked, Isolate.terminate] at halive
    · have hold := h.kept w hw (by simpa [Isolates.shutdown, hparked] using halive)
      simpa [placed, hparked, Isolates.shutdown] using hold
  blank w hw := by simp [Isolates.shutdown] at hw
  fits a ha w hw := by
    have hfits := h.fits a ha w hw
    have hfree : w ∉ s.pool.parked := by
      intro hparked
      have hmem : w ∈ s.calls.filterMap Checkout.worker? := List.mem_filterMap.mpr ⟨a, ha, hw⟩
      exact List.disjoint_of_nodup_append h.once hparked (by simpa [placed] using hmem)
    simpa [Isolates.shutdown, hfree] using hfits
  stock := by simp [Isolates.shutdown]
  closed _ := rfl

/-- An assignment that is posted to a parked worker. -/
lemma Sound.assign (h : s.Sound (some w)) (hblank : (s.isolate w).Blank) :
    (Isolates.call (s.assign w entry, .assigning entry w)).Sound none := by
  obtain ⟨hinbox, hloaded, houtbox, hassigned⟩ := hblank
  have hassign : (s.assign w entry).Sound (some w) := by
    have hw : w ∈ s.placed (some w) := by simp [placed]
    have hother : ∀ a ∈ s.pool.parked ++ s.calls.filterMap Checkout.worker?, a ≠ w := by
      rintro a ha rfl
      have hperm : (s.placed (some a)).Perm (a :: (s.pool.parked ++ s.calls.filterMap Checkout.worker?)) :=
        List.perm_middle
      exact (List.nodup_cons.mp (hperm.nodup_iff.mp h.once)).1 ha
    constructor
    · exact h.once
    · exact h.known
    · intro v hv halive
      by_cases hvw : v = w
      · exact hvw ▸ hw
      · exact h.kept v hv (by simpa [Isolates.assign, Isolates.put, hvw] using halive)
    · intro v hv
      have hvw : v ≠ w := hother v (List.mem_append_left _ hv)
      simpa [Isolates.assign, Isolates.put, hvw] using h.blank v hv
    · intro b hb v hv
      have hvw : v ≠ w := hother v (List.mem_append_right _ (List.mem_filterMap.mpr ⟨b, hb, hv⟩))
      simpa [Isolates.assign, Isolates.put, hvw] using h.fits b hb v hv
    · exact h.stock
    · exact h.closed
  apply Sound.call (a := .assigning entry w) hassign
  intro v hv
  obtain rfl : w = v := by simpa using hv
  constructor <;> simp [Isolates.assign, Isolates.put, hinbox, hloaded, houtbox, hassigned]

/-- A worker in hand is not touched by a refill. -/
lemma refill_isolate (hw : w < s.created) : (Isolates.refill k s).isolate w = s.isolate w := by
  induction k generalizing s with
  | zero => rfl
  | succ k ih =>
    simp only [Isolates.refill]
    split_ifs
    · rw [ih (Nat.lt_succ_of_lt hw)]
      simp [Isolates.park, hw.ne]
    · rfl

lemma Sound.take (h : s.Sound none) :
    (s.take k).1.Sound (s.take k).2 ∧ ∀ w ∈ (s.take k).2, ((s.take k).1.isolate w).Blank := by
  have hasked : s.asked.Sound none := h.counted _ _ _ _
  unfold Isolates.take
  split_ifs with hshut
  · exact ⟨h, by simp⟩
  · cases hlast : s.pool.parked.getLast? with
    | none => exact ⟨hasked.refill.counted _ _ _ _, by simp⟩
    | some w =>
      have hmem : w ∈ s.pool.parked := List.mem_of_getLast? hlast
      have hw : w < s.created := h.known w (List.mem_append_left _ hmem)
      constructor
      · exact ((hasked.pop hlast).refill).counted _ _ _ _
      · intro v hv
        obtain rfl : w = v := by simpa using hv
        have hsame : ((Isolates.refill k s.asked.popped).hit).isolate w = s.isolate w :=
          refill_isolate (s := s.asked.popped) hw
        rw [hsame]
        exact h.blank w hmem

lemma Sound.checkout {posted : Bool} (h : s.Sound none) : (s.checkout entry k posted cold).Sound none := by
  obtain ⟨htake, hblank⟩ := h.take (k := k)
  unfold Isolates.checkout
  split
  · rename_i t ht
    rw [ht] at htake
    exact (htake.spawnCompartment entry cold).1.call (htake.spawnCompartment entry cold).2
  · rename_i t w ht
    rw [ht] at htake hblank
    split_ifs
    · exact htake.assign (hblank w rfl)
    · have hfree := (htake.assignFailed (w := w)).forget assignFailed_dead
      exact (hfree.spawnCompartment entry cold).1.call (hfree.spawnCompartment entry cold).2

lemma sound_start {size : ℕ} (h : (isolates size).init s) : s.Sound none := by
  obtain rfl : s = _ := h
  constructor <;> simp [placed, IsolatePool.new]

lemma sound_step {size : ℕ} {t : Isolates} {e : IsolateEvent} (h : s.Sound none)
    (he : (isolates size).step s e = some t) : t.Sound none := by
  cases e with
  | start k =>
    cases he
    exact h.refill
  | checkout entry k posted cold =>
    cases he
    exact h.checkout
  | receive w =>
    obtain ⟨i, hi, rfl⟩ := Option.map_eq_some_iff.mp he
    exact h.put (Isolate.keeps_receive hi)
  | post w m =>
    obtain ⟨i, hi, rfl⟩ := Option.map_eq_some_iff.mp he
    exact h.put (Isolate.keeps_post hi)
  | hear c cold => exact h.hear he
  | timeout c cold => exact h.timeout he
  | exit w =>
    simp only [isolates, react, Option.ite_none_right_eq_some, Option.some.injEq] at he
    obtain ⟨-, rfl⟩ := he
    exact h.put Isolate.keeps_terminate
  | shutdown =>
    cases he
    exact h.shutdown

lemma Tally.take (h : s.Tally none) : (s.take k).1.Tally (s.take k).2 := by
  have hcheckouts := h.checkouts
  have hhits := h.hits
  unfold Isolates.take
  split_ifs
  · exact h
  · cases s.pool.parked.getLast? with
    | none =>
      obtain ⟨-, -, hc, hh, hf, ha, hcalls⟩ := refill_same (s := s.asked) (k := k)
      constructor
      · simp only [fellBack, hc, hh, hf]
        simp only [asked]
        omega
      · simp only [fellBack, hh, ha, hcalls]
        exact hhits
    | some w =>
      obtain ⟨-, -, hc, hh, hf, ha, hcalls⟩ := refill_same (s := s.asked.popped) (k := k)
      constructor
      · simp only [hit, hc, hh, hf]
        simp only [asked, popped]
        omega
      · simp only [hit, hh, ha, hcalls, Option.toList_some, List.length_singleton]
        exact congrArg (· + 1) hhits

variable (entry cold) in
lemma spawnCompartment_pool : (s.spawnCompartment entry cold).1.pool = s.pool ∧
    (s.spawnCompartment entry cold).1.calls = s.calls ∧ (s.spawnCompartment entry cold).2.pooled = false := by
  cases cold <;> simp [Isolates.spawnCompartment, Checkout.pooled]

lemma Tally.call (h : s.Tally none) (hpooled : a.pooled = false) : (Isolates.call (s, a)).Tally none where
  checkouts := h.checkouts
  hits := by simpa [Isolates.call, hpooled] using h.hits

lemma Tally.spawn (h : s.Tally none) : (Isolates.call (s.spawnCompartment entry cold)).Tally none := by
  obtain ⟨hpool, hcalls, hpooled⟩ := spawnCompartment_pool (s := s) entry cold
  have hspawn : (s.spawnCompartment entry cold).1.Tally none := by
    constructor
    · rw [hpool]
      exact h.checkouts
    · rw [hpool, hcalls]
      exact h.hits
  exact hspawn.call hpooled

lemma Tally.checkout {posted : Bool} (h : s.Tally none) : (s.checkout entry k posted cold).Tally none := by
  have htake := h.take (k := k)
  unfold Isolates.checkout
  split
  · rename_i t ht
    rw [ht] at htake
    exact htake.spawn
  · rename_i t w ht
    rw [ht] at htake
    have hhits := htake.hits
    split_ifs
    · constructor
      · exact htake.checkouts
      · simpa [Isolates.call, Isolates.assign, Isolates.put, Checkout.pooled, add_right_comm] using hhits
    · apply Tally.spawn
      constructor
      · exact htake.checkouts
      · simpa [Isolates.assignFailed, Isolates.put, add_assoc] using hhits

lemma countP_set {calls : List Checkout} (hc : calls[c]? = some (.assigning entry w)) :
    calls.countP Checkout.pooled = (calls.set c a).countP Checkout.pooled + if a.pooled then 0 else 1 := by
  obtain ⟨hlt, hget⟩ := List.getElem?_eq_some_iff.mp hc
  have hpos : 0 < calls.countP Checkout.pooled :=
    List.countP_pos_iff.mpr ⟨_, List.getElem_mem hlt, by simp [hget, Checkout.pooled]⟩
  rw [List.countP_set hlt, hget]
  cases a.pooled <;> simp [Checkout.pooled] <;> omega

lemma Tally.fallback (h : s.Tally none) (hc : s.calls[c]? = some (.assigning entry w)) :
    (settle c ((s.assignFailed w).spawnCompartment entry cold)).Tally none := by
  obtain ⟨hpool, hcalls, hpooled⟩ := spawnCompartment_pool (s := s.assignFailed w) entry cold
  have hcount := countP_set (a := ((s.assignFailed w).spawnCompartment entry cold).2) hc
  have hhits := h.hits
  rw [hpooled] at hcount
  constructor
  · simp only [settle, hpool]
    exact h.checkouts
  · have hfailed : (s.assignFailed w).pool.assignFailures = s.pool.assignFailures + 1 := rfl
    have hhit : (s.assignFailed w).pool.hits = s.pool.hits := rfl
    have hsame : (s.assignFailed w).calls = s.calls := rfl
    simp only [settle, hpool, hcalls, hfailed, hhit, hsame]
    simp only [Bool.false_eq_true, if_false] at hcount
    omega

lemma Tally.hear {t : Isolates} (h : s.Tally none) (ht : s.hear c cold = some t) : t.Tally none := by
  unfold Isolates.hear at ht
  split at ht
  · rename_i entry w hc
    split at ht
    · cases ht
    · rename_i m rest hout
      have hheard : (s.put w { s.isolate w with outbox := rest }).Tally none := ⟨h.checkouts, h.hits⟩
      cases m with
      | other =>
        cases ht
        exact hheard
      | assigned failed =>
        cases failed with
        | true =>
          cases ht
          exact hheard.fallback hc
        | false =>
          cases ht
          have hcount := countP_set (a := .compartment entry w true) hc
          constructor
          · exact h.checkouts
          · have hhits := h.hits
            simpa [settle, put, hcount, Checkout.pooled] using hhits
  · cases ht

lemma Tally.timeout {t : Isolates} (h : s.Tally none) (ht : s.timeout c cold = some t) : t.Tally none := by
  unfold Isolates.timeout at ht
  split at ht
  · rename_i entry w hc
    cases ht
    exact h.fallback hc
  · cases ht

lemma tally_step {size : ℕ} {t : Isolates} {e : IsolateEvent} (h : s.Tally none)
    (he : (isolates size).step s e = some t) : t.Tally none := by
  cases e with
  | start k =>
    cases he
    obtain ⟨-, -, hc, hh, hf, ha, hcalls⟩ := refill_same (s := s) (k := k)
    constructor
    · rw [hc, hh, hf]
      exact h.checkouts
    · rw [hh, hcalls, ha]
      exact h.hits
  | checkout entry k posted cold =>
    cases he
    exact h.checkout
  | receive w =>
    obtain ⟨i, -, rfl⟩ := Option.map_eq_some_iff.mp he
    exact ⟨h.checkouts, h.hits⟩
  | post w m =>
    obtain ⟨i, -, rfl⟩ := Option.map_eq_some_iff.mp he
    exact ⟨h.checkouts, h.hits⟩
  | hear c cold => exact h.hear he
  | timeout c cold => exact h.timeout he
  | exit w =>
    simp only [isolates, react, Option.ite_none_right_eq_some, Option.some.injEq] at he
    obtain ⟨-, rfl⟩ := he
    exact ⟨h.checkouts, h.hits⟩
  | shutdown =>
    cases he
    exact ⟨h.checkouts, h.hits⟩

/-- A compartment that was handed out keeps its worker. -/
lemma settled_step {size : ℕ} {t : Isolates} {e : IsolateEvent} {pooled : Bool}
    (he : (isolates size).step s e = some t) (hc : s.calls[c]? = some (.compartment entry w pooled)) :
    t.calls[c]? = some (.compartment entry w pooled) := by
  have happend : ∀ r : Isolates × Checkout, r.1.calls = s.calls →
      (Isolates.call r).calls[c]? = some (.compartment entry w pooled) := by
    intro r hr
    rw [Isolates.call, hr, List.getElem?_append_left (List.getElem?_eq_some_iff.mp hc).1, hc]
  have hsettle : ∀ (r : Isolates × Checkout) c' entry' w', r.1.calls = s.calls →
      s.calls[c']? = some (.assigning entry' w') → (settle c' r).calls[c]? = some (.compartment entry w pooled) := by
    intro r c' entry' w' hr hc'
    rw [settle, hr, List.getElem?_set_ne, hc]
    rintro rfl
    simp [hc] at hc'
  cases e with
  | start k =>
    cases he
    rw [refill_same.2.2.2.2.2.2, hc]
  | checkout entry' k posted cold =>
    cases he
    have htake : (s.take k).1.calls = s.calls := by
      unfold Isolates.take
      split_ifs
      · rfl
      · cases s.pool.parked.getLast? with
        | none => exact refill_same.2.2.2.2.2.2
        | some _ => exact refill_same.2.2.2.2.2.2
    unfold Isolates.checkout
    split
    · rename_i r hr
      rw [hr] at htake
      exact happend _ ((spawnCompartment_pool _ cold).2.1.trans htake)
    · rename_i r v hr
      rw [hr] at htake
      split_ifs
      · exact happend _ htake
      · exact happend _ ((spawnCompartment_pool _ cold).2.1.trans htake)
  | receive v =>
    obtain ⟨i, -, rfl⟩ := Option.map_eq_some_iff.mp he
    exact hc
  | post v m =>
    obtain ⟨i, -, rfl⟩ := Option.map_eq_some_iff.mp he
    exact hc
  | hear c' cold =>
    simp only [isolates, react, Isolates.hear] at he
    split at he
    · rename_i entry' w' hc'
      split at he
      · cases he
      · rename_i m rest hout
        cases m with
        | other =>
          cases he
          exact hc
        | assigned failed =>
          cases failed with
          | false =>
            cases he
            exact hsettle _ c' entry' w' rfl hc'
          | true =>
            cases he
            exact hsettle _ c' entry' w' (spawnCompartment_pool _ cold).2.1 hc'
    · cases he
  | timeout c' cold =>
    simp only [isolates, react, Isolates.timeout] at he
    split at he
    · rename_i entry' w' hc'
      cases he
      exact hsettle _ c' entry' w' (spawnCompartment_pool _ cold).2.1 hc'
    · cases he
  | exit v =>
    simp only [isolates, react, Option.ite_none_right_eq_some, Option.some.injEq] at he
    obtain ⟨-, rfl⟩ := he
    exact hc
  | shutdown =>
    cases he
    exact hc

/-- What holds of the pool, of the workers and of the host's compartments at every moment. -/
structure Kept (s : Isolates) : Prop where
  stock : s.pool.parked.length ≤ s.pool.size
  blank : ∀ w ∈ s.pool.parked, (s.isolate w).loaded = []
  closed : s.pool.shut = true → s.pool.parked = []
  code : ∀ (c : ℕ) (entry : String) (w : ℕ) (pooled : Bool), s.calls[c]? = some (Checkout.compartment entry w pooled) →
    (s.isolate w).loaded = [entry]
  apart : ∀ c c' w : ℕ, s.calls[c]?.bind Checkout.worker? = some w → s.calls[c']?.bind Checkout.worker? = some w → c = c'
  free : ∀ c w : ℕ, s.calls[c]?.bind Checkout.worker? = some w → w ∉ s.pool.parked
  owned : ∀ w < s.created, (s.isolate w).alive = true →
    w ∈ s.pool.parked ∨ ∃ c : ℕ, s.calls[c]?.bind Checkout.worker? = some w
  checkouts : s.pool.checkouts = s.pool.hits + s.pool.coldFallbacks
  hits : s.pool.hits = s.calls.countP Checkout.pooled + s.pool.assignFailures

lemma worker_index {calls : List Checkout} {c c' : ℕ} (h : (calls.filterMap Checkout.worker?).Nodup)
    (hc : calls[c]?.bind Checkout.worker? = some w) (hc' : calls[c']?.bind Checkout.worker? = some w) : c = c' := by
  obtain ⟨a, ha, haw⟩ := Option.bind_eq_some_iff.mp hc
  obtain ⟨b, hb, hbw⟩ := Option.bind_eq_some_iff.mp hc'
  obtain ⟨hlt, rfl⟩ := List.getElem?_eq_some_iff.mp ha
  obtain ⟨hlt', rfl⟩ := List.getElem?_eq_some_iff.mp hb
  have hpair := List.pairwise_iff_getElem.mp (List.pairwise_filterMap.mp h)
  obtain hless | heq | hless := lt_trichotomy c c'
  · exact absurd rfl (hpair c c' hlt hlt' hless w haw w hbw)
  · exact heq
  · exact absurd rfl (hpair c' c hlt' hlt hless w hbw w haw)

lemma Sound.kept_of (h : s.Sound none) (htally : s.Tally none) : s.Kept where
  stock := h.stock
  blank w hw := (h.blank w hw).2.1
  closed := h.closed
  code c entry w pooled hc := (h.fits _ (List.mem_of_getElem? hc) w rfl).2
  apart c c' w hc hc' := worker_index (List.nodup_append.mp h.once).2.1 hc hc'
  free c w hc hparked := by
    obtain ⟨a, ha, haw⟩ := Option.bind_eq_some_iff.mp hc
    have hmem : w ∈ s.calls.filterMap Checkout.worker? := List.mem_filterMap.mpr ⟨a, List.mem_of_getElem? ha, haw⟩
    exact List.disjoint_of_nodup_append h.once hparked hmem
  owned w hw halive := by
    obtain hparked | hcall := List.mem_append.mp (h.kept w hw halive)
    · exact .inl hparked
    · obtain ⟨a, ha, haw⟩ := List.mem_filterMap.mp hcall
      obtain ⟨c, hlt, rfl⟩ := List.getElem_of_mem ha
      exact .inr ⟨c, by simp [hlt, haw]⟩
  checkouts := htally.checkouts
  hits := htally.hits

variable {size : ℕ}

/-- Whatever the order of the steps, an isolate runs the code of one compartment at most, for its whole life. -/
theorem isolates_run_one_plugin (h : (isolates size).Reachable System.free s) :
    s.Kept ∧ ∀ t, (isolates size).Later System.free s t → ∀ (c : ℕ) (entry : String) (w : ℕ) (pooled : Bool),
      s.calls[c]? = some (Checkout.compartment entry w pooled) →
        t.calls[c]? = some (Checkout.compartment entry w pooled) ∧ (t.isolate w).loaded = [entry] := by
  have hkept : ∀ t, (isolates size).Reachable System.free t → t.Kept := by
    intro t ht
    have hsound : t.Sound none := ht.invariant (fun _ => sound_start) (fun _ _ _ _ hs _ he => sound_step hs he)
    have htally : t.Tally none := by
      apply ht.invariant (P := Tally none)
      · rintro r rfl
        constructor <;> rfl
      · exact fun _ _ _ _ hs _ he => tally_step hs he
    exact hsound.kept_of htally
  refine ⟨hkept s h, fun t ht c entry w pooled hc => ?_⟩
  have hsettled : t.calls[c]? = some (.compartment entry w pooled) :=
    ht.invariant (P := fun t => t.calls[c]? = some (Checkout.compartment entry w pooled)) hc
      (fun _ _ _ hs _ he => settled_step he hs)
  exact ⟨hsettled, (hkept t (ht.reachable h)).code c entry w pooled hsettled⟩

/-- One worker is handed over with its code, and the next one fails its assignment. -/
def burst : List IsolateEvent :=
  [.start 1, .checkout "a.ts" 1 true true, .receive 0, .post 0 (.assigned false), .hear 0 true,
    .checkout "b.ts" 1 true true, .timeout 1 true, .shutdown]

theorem isolates_run_one_plugin_burst :
    ∃ s, (isolates 1).Reachable System.free s ∧
      s.calls = [.compartment "a.ts" 0 true, .compartment "b.ts" 3 false] ∧ s.Kept ∧
      ∀ t, (isolates 1).Later System.free s t → t.calls[0]? = some (.compartment "a.ts" 0 true) ∧
        (t.isolate 0).loaded = ["a.ts"] := by
  have hrun : ((isolates 1).exec System.free ⟨.new 1, 0, fun _ => .parked, []⟩ burst).map
      (fun s => decide (s.calls = [.compartment "a.ts" 0 true, .compartment "b.ts" 3 false])) = some true := by decide
  obtain ⟨s, hreach, hcalls⟩ := System.exec_spec rfl hrun
  have hsame := of_decide_eq_true hcalls
  obtain ⟨hkept, hlater⟩ := isolates_run_one_plugin hreach
  refine ⟨s, hreach, hsame, hkept, fun t ht => hlater t ht 0 "a.ts" 0 true ?_⟩
  rw [hsame]
  rfl

end Isolates

end VivimOmega.Daemon

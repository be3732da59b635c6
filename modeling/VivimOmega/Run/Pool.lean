import VivimOmega.Contracts.Port
import VivimOmega.Library.Json.Reading
import VivimOmega.Library.Transition

/-! The bounded executor: a priority queue with running slots, and the tasks that its slots execute. -/

namespace VivimOmega.Run

open Library Library.Json Contracts

section Queue

inductive Priority
  | high | normal | low
  deriving DecidableEq

def Priority.rank : Priority → ℕ
  | high => 0
  | normal => 1
  | low => 2

def DEFAULT_DEADLINE_MS : ℕ := 5000

def MIN_DEADLINE_MS : ℕ := 1

def MAX_DEADLINE_MS : ℕ := 60000

def SATURATION_FACTOR : ℕ := 4

/-- The floor of a number from zero on, and of those below it zero. -/
def floorMs : Number → Option ℕ
  | .nan => none
  | .infinity negative => some (if negative then 0 else MAX_DEADLINE_MS)
  | .zero => some 0
  | .finite true _ => some 0
  | .finite false d =>
    some (Nat.ofDigits 10 ((d.digits.take d.point.toNat).map Fin.val).reverse *
      10 ^ (d.point - d.digits.length).toNat)

def clampMs (ms : ℕ) : ℕ := min MAX_DEADLINE_MS (max MIN_DEADLINE_MS ms)

def clampDeadline (ms : Value) : ℕ :=
  match ms with
  | .number n =>
    match floorMs n with
    | some whole => clampMs whole
    | none => DEFAULT_DEADLINE_MS
  | _ => DEFAULT_DEADLINE_MS

def normalizePriority (p : Value) : Priority :=
  match p with
  | .string s => if s = ofText "high" then .high else if s = ofText "low" then .low else .normal
  | _ => .normal

/-- The id of a task is its number, which the boot's nonce stands before. -/
structure QueuedTask where
  id : ℕ
  op : JsString
  payload : Value
  priority : Priority
  deadlineMs : ℕ
  submittedAt : ℤ

/-- A task that is to start before another one that waits. -/
def QueuedTask.Precedes (t u : QueuedTask) : Prop :=
  t.priority.rank < u.priority.rank ∨ t.priority = u.priority ∧ t.id < u.id

end Queue

section Pool

inductive TaskStatus
  | ok | timeout | error
  deriving DecidableEq

inductive Freshness
  | current | lagging | stale
  deriving DecidableEq

inductive TaskId
  | invalid
  | task (id : ℕ)
  deriving DecidableEq

structure TaskResult where
  taskId : TaskId
  op : String
  priority : Priority
  status : TaskStatus
  freshness : Freshness
  result : PortResult
  deadlineMs : ℕ
  queuedMs : ℤ
  execMs : ℤ
  totalMs : ℤ

/-- How a submit is answered: with a promise, or at once. -/
inductive Answer
  | promised (id : ℕ)
  | saturated (queued running capacity : ℕ)
  | invalid (result : TaskResult)

def Answer.accepted : Answer → Bool
  | saturated .. => false
  | _ => true

/-- A submit: whether its op is a text, the load it met, and its answer. -/
structure Submission where
  named : Bool
  queued : ℕ
  running : ℕ
  answer : Answer

/-- A task that starts: the tasks it leaves waiting, and how many execute with it. -/
structure Start where
  task : QueuedTask
  waiting : List QueuedTask
  executing : ℕ

/-- A task whose port call is awaited. -/
structure Execution where
  task : QueuedTask
  queuedMs : ℤ
  start : ℤ

structure Counts where
  completed : ℕ := 0
  ok : ℕ := 0
  timeouts : ℕ := 0
  errors : ℕ := 0
  rejected : ℕ := 0

/-- The pool with its queue; what it has answered, started and resolved is kept beside it. -/
structure TaskPool where
  capacity : ℕ
  high : List QueuedTask := []
  normal : List QueuedTask := []
  low : List QueuedTask := []
  runningSlots : ℕ := 0
  seq : ℕ := 0
  resolvers : List ℕ := []
  counts : Counts := {}
  executing : List Execution := []
  submissions : List Submission := []
  starts : List Start := []
  resolved : List TaskResult := []

def freshnessFor (deadlineMs : ℕ) (elapsedMs : ℤ) : Freshness :=
  let remaining := deadlineMs - elapsedMs
  if deadlineMs < 2 * remaining then .current else if 0 < remaining then .lagging else .stale

def statusFor : PortResult → TaskStatus
  | .ok _ => .ok
  | .error code .. => if code = .budget then .timeout else .error

def Counts.count (c : Counts) : TaskStatus → Counts
  | .ok => { c with completed := c.completed + 1, ok := c.ok + 1 }
  | .timeout => { c with completed := c.completed + 1, timeouts := c.timeouts + 1 }
  | .error => { c with completed := c.completed + 1, errors := c.errors + 1 }

/-- What the clock shows and the port does when a task starts: a call may throw before it returns a promise. -/
structure Starting where
  dequeueAt : ℤ
  start : ℤ
  thrown : Option String
  doneAt : ℤ
  totalAt : ℤ

namespace TaskPool

variable (p : TaskPool)

def waiting : List QueuedTask := p.high ++ p.normal ++ p.low

def queued : ℕ := p.high.length + p.normal.length + p.low.length

def push (t : QueuedTask) : TaskPool :=
  match t.priority with
  | .high => { p with high := p.high ++ [t] }
  | .normal => { p with normal := p.normal ++ [t] }
  | .low => { p with low := p.low ++ [t] }

def claim (t : QueuedTask) : TaskPool :=
  { p with
    runningSlots := p.runningSlots + 1
    starts := p.starts ++ [⟨t, p.waiting, p.runningSlots + 1⟩] }

def take : Option (QueuedTask × TaskPool) :=
  match p.high, p.normal, p.low with
  | t :: rest, _, _ => some (t, { p with high := rest }.claim t)
  | [], t :: rest, _ => some (t, { p with normal := rest }.claim t)
  | [], [], t :: rest => some (t, { p with low := rest }.claim t)
  | [], [], [] => none

def finish : TaskPool := { p with runningSlots := p.runningSlots - 1 }

/-- The end of `execute`, up to its call of `pump`. -/
def complete (x : Execution) (result : PortResult) (doneAt totalAt : ℤ) : TaskPool :=
  let totalMs := totalAt - x.task.submittedAt
  let status := statusFor result
  let finished := { p with counts := p.counts.count status }.finish
  let settled : TaskResult := ⟨.task x.task.id, toText x.task.op, x.task.priority, status,
    freshnessFor x.task.deadlineMs totalMs, result, x.task.deadlineMs, x.queuedMs, doneAt - x.start, totalMs⟩
  if x.task.id ∈ finished.resolvers then
    { finished with
      resolvers := finished.resolvers.erase x.task.id
      resolved := finished.resolved ++ [settled] }
  else finished

def await (x : Execution) : TaskPool := { p with executing := p.executing ++ [x] }

/-- The result that `execute` has without waiting for the port, if any. -/
def immediate (t : QueuedTask) (s : Starting) : Option PortResult :=
  let queuedMs := s.dequeueAt - t.submittedAt
  if t.deadlineMs - queuedMs ≤ 0 then
    some (.error .budget ("run: task deadline " ++ toString t.deadlineMs ++ "ms expired while queued (waited " ++
      toString queuedMs ++ "ms)") none)
  else s.thrown.map fun e => .error .degraded ("run: port call threw for " ++ toText t.op ++ ": " ++ e) none

/-- The loop of `pump`, where a task that completes at once pumps from within. -/
def pump (starting : ℕ → Starting) : ℕ → TaskPool → TaskPool
  | 0, p => p
  | fuel + 1, p =>
    if p.runningSlots < p.capacity then
      match p.take with
      | none => p
      | some (t, taken) =>
        let s := starting t.id
        let x : Execution := ⟨t, s.dequeueAt - t.submittedAt, s.start⟩
        match immediate t s with
        | some result => pump starting fuel (pump starting fuel (taken.complete x result s.doneAt s.totalAt))
        | none => pump starting fuel (taken.await x)
    else p

def log (named : Bool) (answer : Answer) : TaskPool :=
  { p with submissions := p.submissions ++ [⟨named, p.queued, p.runningSlots, answer⟩] }

def invalidResult (req : Value) : TaskResult :=
  let op := match optionalProperty req "op" with
    | .undefined => ""
    | .null => ""
    | v => jsString v
  ⟨.invalid, op, normalizePriority (optionalProperty req "priority"), .error, .stale,
    .error .refused "run.submit: 'op' must be a non-empty string" none, 0, 0, 0, 0⟩

def admitTask (op : JsString) (req : Value) (now : ℤ) : TaskPool :=
  let logged := p.log true (.promised (p.seq + 1))
  let task : QueuedTask := ⟨p.seq + 1, op, optionalProperty req "payload",
    normalizePriority (optionalProperty req "priority"), clampMs (clampDeadline (optionalProperty req "deadlineMs")), now⟩
  let pushed := { logged with seq := p.seq + 1 }.push task
  { pushed with resolvers := pushed.resolvers ++ [task.id] }

/-- `submit`, at a time. -/
def submit (starting : ℕ → Starting) (req : Value) (now : ℤ) : TaskPool :=
  match optionalProperty req "op" with
  | .string (u :: rest) =>
    if p.capacity * SATURATION_FACTOR ≤ p.queued + p.runningSlots then
      let logged := p.log true (.saturated p.queued p.runningSlots p.capacity)
      { logged with counts := { logged.counts with rejected := logged.counts.rejected + 1 } }
    else
      let admitted := p.admitTask (u :: rest) req now
      pump starting (admitted.queued + 1) admitted
  | _ => p.log false (.invalid (invalidResult req))

/-- What an awaited port call comes to. -/
inductive CallOutcome
  | answered (result : PortResult)
  | threw (err : String)

def CallOutcome.result (op : JsString) : CallOutcome → PortResult
  | answered result => result
  | threw err => .error .degraded ("run: port call threw for " ++ toText op ++ ": " ++ err) none

/-- A port call settles, and the rest of `execute` runs. -/
def settle (starting : ℕ → Starting) (id : ℕ) (outcome : CallOutcome) (doneAt totalAt : ℤ) : Option TaskPool :=
  match p.executing.find? fun x => x.task.id = id with
  | none => none
  | some x =>
    let rest := { p with executing := p.executing.eraseP fun x => x.task.id = id }.complete x
      (outcome.result x.task.op) doneAt totalAt
    some (pump starting (rest.queued + 1) rest)

inductive Event
  | submit (req : Value) (now : ℤ)
  | settle (id : ℕ) (outcome : CallOutcome) (doneAt totalAt : ℤ)

def step (starting : ℕ → Starting) (p : TaskPool) : Event → Option TaskPool
  | .submit req now => some (p.submit starting req now)
  | .settle id outcome doneAt totalAt => p.settle starting id outcome doneAt totalAt

def system (starting : ℕ → Starting) : System TaskPool Event where
  init p := ∃ capacity, 1 ≤ capacity ∧ p = { capacity := capacity }
  step := step starting

end TaskPool

end Pool

section Law

def Answer.promised? : Answer → Option ℕ
  | promised id => some id
  | _ => none

/-- The promises the pool has given. -/
def TaskPool.promises (p : TaskPool) : List TaskId := (p.submissions.filterMap fun s => s.answer.promised?).map .task

/-- The tasks that a list of tasks and executions holds. -/
def TaskPool.open (p : TaskPool) : List TaskId :=
  p.waiting.map (fun t => .task t.id) ++ p.executing.map fun x => .task x.task.id

/-- The law of the executor, where a condition says which submissions count. -/
structure Bounded (counts : Submission → Bool) (p : TaskPool) : Prop where
  executing : p.executing.length ≤ p.capacity ∧ ∀ s ∈ p.starts, s.executing ≤ p.capacity
  rejected : ∀ s ∈ p.submissions, counts s = true →
    (s.answer.accepted = false ↔ p.capacity * SATURATION_FACTOR ≤ s.queued + s.running)
  busy : p.executing.length < p.capacity → p.queued = 0
  ordered : ∀ s ∈ p.starts, ∀ u ∈ s.waiting, s.task.Precedes u
  once : (p.open ++ p.resolved.map TaskResult.taskId).Perm p.promises ∧ p.promises.Nodup
  completed : p.counts.completed = p.counts.ok + p.counts.timeouts + p.counts.errors
  accounted : p.queued + p.runningSlots + p.counts.completed =
    (p.submissions.filter fun s => counts s && s.answer.accepted).length

variable {p q : TaskPool} {t : QueuedTask} {held : List QueuedTask} {starting : ℕ → Starting}

/-- The tasks of one level, in the order of their submission. -/
def Level (priority : Priority) (tasks : List QueuedTask) : Prop :=
  (∀ u ∈ tasks, u.priority = priority) ∧ tasks.Pairwise fun a b => a.id < b.id

/-- What holds of the pool at any moment, with the tasks that have a slot and are not awaited yet. -/
structure Core (held : List QueuedTask) (p : TaskPool) : Prop where
  slots : p.runningSlots = p.executing.length + held.length
  le : p.runningSlots ≤ p.capacity
  peak : ∀ s ∈ p.starts, s.executing ≤ p.capacity
  high : Level .high p.high
  normal : Level .normal p.normal
  low : Level .low p.low
  ordered : ∀ s ∈ p.starts, ∀ u ∈ s.waiting, s.task.Precedes u
  resolvers : p.resolvers.Perm (held.map QueuedTask.id ++ (p.waiting.map QueuedTask.id ++
    p.executing.map fun x => x.task.id))
  once : (held.map (fun t => TaskId.task t.id) ++ (p.open ++ p.resolved.map TaskResult.taskId)).Perm p.promises
  promised : p.submissions.filterMap (fun s => s.answer.promised?) = (List.range p.seq).map (· + 1)
  completed : p.counts.completed = p.counts.ok + p.counts.timeouts + p.counts.errors
  finished : p.counts.completed = p.resolved.length
  rejected : ∀ s ∈ p.submissions, s.named = true →
    (s.answer.accepted = false ↔ p.capacity * SATURATION_FACTOR ≤ s.queued + s.running)
  invalid : ∀ s ∈ p.submissions, (s.named = true → s.answer.accepted = s.answer.promised?.isSome) ∧
    (s.named = false → ∃ req, s.answer = .invalid (TaskPool.invalidResult req))

lemma queued_eq (p : TaskPool) : p.queued = p.waiting.length := by
  simp [TaskPool.queued, TaskPool.waiting, add_assoc]

lemma Level.tail {priority : Priority} {rest : List QueuedTask} (h : Level priority (t :: rest)) : Level priority rest :=
  ⟨fun u hu => h.1 u (List.mem_cons_of_mem _ hu), (List.pairwise_cons.mp h.2).2⟩

lemma Level.precedes {priority : Priority} {rest : List QueuedTask} (h : Level priority (t :: rest)) :
    ∀ u ∈ rest, t.Precedes u := by
  intro u hu
  have hpriority : t.priority = u.priority := by rw [h.1 t List.mem_cons_self, h.1 u (List.mem_cons_of_mem _ hu)]
  exact .inr ⟨hpriority, (List.pairwise_cons.mp h.2).1 u hu⟩

lemma Level.below {priority other : Priority} {tasks rest : List QueuedTask} (h : Level priority (t :: rest))
    (ho : Level other tasks) (hrank : priority.rank < other.rank) : ∀ u ∈ tasks, t.Precedes u := by
  intro u hu
  left
  rw [h.1 t List.mem_cons_self, ho.1 u hu]
  exact hrank

lemma Core.claim {left : TaskPool} (h : Core [] p) (hslot : p.runningSlots < p.capacity)
    (hwaiting : p.waiting = t :: left.waiting) (hhigh : Level .high left.high) (hnormal : Level .normal left.normal)
    (hlow : Level .low left.low) (hfirst : ∀ u ∈ left.waiting, t.Precedes u)
    (hsame : left = { p with high := left.high, normal := left.normal, low := left.low }) : Core [t] (left.claim t) := by
  have hopen : (left.claim t).open = left.open := rfl
  have hslots : left.runningSlots = p.runningSlots := by rw [hsame]
  have hcapacity : left.capacity = p.capacity := by rw [hsame]
  have hstarts : left.starts = p.starts := by rw [hsame]
  have hexecuting : left.executing = p.executing := by rw [hsame]
  have hresolvers : left.resolvers = p.resolvers := by rw [hsame]
  have hresolved : left.resolved = p.resolved := by rw [hsame]
  have hsubmissions : left.submissions = p.submissions := by rw [hsame]
  have hseq : left.seq = p.seq := by rw [hsame]
  have hcounts : left.counts = p.counts := by rw [hsame]
  have hnew : (left.claim t).starts = left.starts ++ [⟨t, left.waiting, left.runningSlots + 1⟩] := rfl
  refine ⟨?_, ?_, ?_, hhigh, hnormal, hlow, ?_, ?_, ?_, ?_, ?_, ?_, ?_, ?_⟩
  · change left.runningSlots + 1 = left.executing.length + 1
    rw [hslots, hexecuting, h.slots]
    rfl
  · change left.runningSlots + 1 ≤ left.capacity
    rw [hslots, hcapacity]
    exact hslot
  · rw [hnew, hstarts, List.forall_mem_append, List.forall_mem_singleton]
    change (∀ s ∈ p.starts, s.executing ≤ left.capacity) ∧ left.runningSlots + 1 ≤ left.capacity
    rw [hslots, hcapacity]
    exact ⟨h.peak, hslot⟩
  · rw [hnew, hstarts, List.forall_mem_append, List.forall_mem_singleton]
    exact ⟨h.ordered, hfirst⟩
  · change left.resolvers.Perm (t.id :: (left.waiting.map QueuedTask.id ++ left.executing.map fun x => x.task.id))
    have hperm := h.resolvers
    rw [hwaiting] at hperm
    rw [hresolvers, hexecuting]
    exact hperm
  · have hperm := h.once
    rw [TaskPool.open, hwaiting] at hperm
    change (TaskId.task t.id :: (left.open ++ left.resolved.map TaskResult.taskId)).Perm left.promises
    rw [TaskPool.open, TaskPool.promises, hexecuting, hresolved, hsubmissions]
    exact hperm
  · change left.submissions.filterMap _ = (List.range left.seq).map _
    rw [hsubmissions, hseq]
    exact h.promised
  · change left.counts.completed = left.counts.ok + left.counts.timeouts + left.counts.errors
    rw [hcounts]
    exact h.completed
  · change left.counts.completed = left.resolved.length
    rw [hcounts, hresolved]
    exact h.finished
  · change ∀ s ∈ left.submissions, s.named = true →
      (s.answer.accepted = false ↔ left.capacity * SATURATION_FACTOR ≤ s.queued + s.running)
    rw [hsubmissions, hcapacity]
    exact h.rejected
  · change ∀ s ∈ left.submissions, _
    rw [hsubmissions]
    exact h.invalid

/-- The task that is taken stood first. -/
lemma Core.take (h : Core [] p) (hslot : p.runningSlots < p.capacity) (htake : p.take = some (t, q)) :
    Core [t] q ∧ p.queued = q.queued + 1 := by
  unfold TaskPool.take at htake
  split at htake
  · next t' rest hhigh =>
    cases htake
    have hlevel := h.high
    rw [hhigh] at hlevel
    refine ⟨h.claim hslot ?_ hlevel.tail h.normal h.low ?_ rfl, ?_⟩
    · simp [TaskPool.waiting, hhigh]
    · rw [TaskPool.waiting, List.forall_mem_append, List.forall_mem_append]
      exact ⟨⟨hlevel.precedes, hlevel.below h.normal (by decide)⟩, hlevel.below h.low (by decide)⟩
    · simp only [TaskPool.queued, TaskPool.claim, hhigh, List.length_cons]
      omega
  · next t' rest hhigh hnormal =>
    cases htake
    have hlevel := h.normal
    rw [hnormal] at hlevel
    refine ⟨h.claim hslot ?_ h.high hlevel.tail h.low ?_ rfl, ?_⟩
    · simp [TaskPool.waiting, hhigh, hnormal]
    · rw [TaskPool.waiting, List.forall_mem_append, List.forall_mem_append]
      refine ⟨⟨?_, hlevel.precedes⟩, hlevel.below h.low (by decide)⟩
      rw [hhigh]
      simp
    · simp only [TaskPool.queued, TaskPool.claim, hnormal, List.length_cons]
      omega
  · next t' rest hhigh hnormal hlow =>
    cases htake
    have hlevel := h.low
    rw [hlow] at hlevel
    refine ⟨h.claim hslot ?_ h.high h.normal hlevel.tail ?_ rfl, ?_⟩
    · simp [TaskPool.waiting, hhigh, hnormal, hlow]
    · rw [TaskPool.waiting, List.forall_mem_append, List.forall_mem_append]
      rw [hhigh, hnormal]
      exact ⟨⟨by simp, by simp⟩, hlevel.precedes⟩
    · simp only [TaskPool.queued, TaskPool.claim, hlow, List.length_cons]
      omega
  · cases htake

lemma take_none (h : p.take = none) : p.queued = 0 := by
  unfold TaskPool.take at h
  split at h
  · cases h
  · cases h
  · cases h
  · next hhigh hnormal hlow => simp [TaskPool.queued, hhigh, hnormal, hlow]

lemma Core.await (h : Core [t] p) (x : Execution) (hx : x.task = t) : Core [] (p.await x) where
  slots := by
    have hslots := h.slots
    simp only [TaskPool.await, List.length_append, List.length_singleton, List.length_nil] at hslots ⊢
    omega
  le := h.le
  peak := h.peak
  high := h.high
  normal := h.normal
  low := h.low
  ordered := h.ordered
  resolvers := by
    refine h.resolvers.trans ?_
    change (t.id :: (p.waiting.map QueuedTask.id ++ p.executing.map fun x => x.task.id)).Perm
      (p.waiting.map QueuedTask.id ++ (p.executing ++ [x]).map fun x => x.task.id)
    rw [List.map_append, ← List.append_assoc, List.map_singleton, hx]
    exact (List.perm_append_singleton _ _).symm
  once := by
    refine List.Perm.trans ?_ h.once
    change (p.waiting.map (fun t => TaskId.task t.id) ++ (p.executing ++ [x]).map (fun x => TaskId.task x.task.id) ++
      p.resolved.map TaskResult.taskId).Perm (TaskId.task t.id :: (p.open ++ p.resolved.map TaskResult.taskId))
    rw [List.map_append, ← List.append_assoc, List.map_singleton, hx, ← List.cons_append]
    exact (List.perm_append_singleton _ _).append_right _
  promised := h.promised
  completed := h.completed
  finished := h.finished
  rejected := h.rejected
  invalid := h.invalid

lemma count_completed (c : Counts) (status : TaskStatus) (h : c.completed = c.ok + c.timeouts + c.errors) :
    (c.count status).completed = c.completed + 1 ∧
      (c.count status).completed = (c.count status).ok + (c.count status).timeouts + (c.count status).errors := by
  cases status with
  | ok => exact ⟨rfl, by dsimp only [Counts.count]; omega⟩
  | timeout => exact ⟨rfl, by dsimp only [Counts.count]; omega⟩
  | error => exact ⟨rfl, by dsimp only [Counts.count]; omega⟩

lemma Core.complete (h : Core [t] p) (x : Execution) (hx : x.task = t) (result : PortResult) (doneAt totalAt : ℤ) :
    Core [] (p.complete x result doneAt totalAt) ∧ (p.complete x result doneAt totalAt).queued = p.queued := by
  have hmem : x.task.id ∈ ({ p with counts := p.counts.count (statusFor result) }.finish).resolvers := by
    rw [hx]
    exact h.resolvers.mem_iff.mpr List.mem_cons_self
  obtain ⟨hmore, hsum⟩ := count_completed p.counts (statusFor result) h.completed
  unfold TaskPool.complete
  rw [if_pos hmem]
  refine ⟨⟨?_, ?_, h.peak, h.high, h.normal, h.low, h.ordered, ?_, ?_, h.promised, hsum, ?_, h.rejected, h.invalid⟩, rfl⟩
  · have hslots := h.slots
    simp only [TaskPool.finish, List.length_singleton, List.length_nil] at hslots ⊢
    omega
  · exact (Nat.sub_le _ _).trans h.le
  · have herase := h.resolvers.erase t.id
    rw [List.map_singleton, List.singleton_append, List.erase_cons_head] at herase
    rw [← hx] at herase
    exact herase
  · refine List.Perm.trans ?_ h.once
    rw [List.map_append, List.map_singleton, hx]
    change (p.open ++ (p.resolved.map TaskResult.taskId ++ [TaskId.task t.id])).Perm
      (TaskId.task t.id :: (p.open ++ p.resolved.map TaskResult.taskId))
    rw [← List.append_assoc]
    exact List.perm_append_singleton _ _
  · rw [List.length_append, List.length_singleton]
    change (p.counts.count (statusFor result)).completed = _
    rw [hmore, h.finished]
    rfl

/-- By the fuel, which is more than the tasks that wait: a pump ends with no slot free or no task waiting. -/
lemma Core.pump (starting : ℕ → Starting) (h : Core [] p) (fuel : ℕ) : Core [] (TaskPool.pump starting fuel p) ∧
    (TaskPool.pump starting fuel p).queued ≤ p.queued ∧ (p.queued < fuel →
      (TaskPool.pump starting fuel p).queued = 0 ∨
        (TaskPool.pump starting fuel p).capacity ≤ (TaskPool.pump starting fuel p).runningSlots) := by
  induction fuel generalizing p with
  | zero => exact ⟨h, le_refl _, fun hlt => absurd hlt (Nat.not_lt_zero _)⟩
  | succ fuel ih =>
    unfold TaskPool.pump
    split_ifs with hslot
    · split
      · next htake => exact ⟨h, le_refl _, fun _ => .inl (take_none htake)⟩
      · next t taken htake =>
        obtain ⟨htaken, hless⟩ := h.take hslot htake
        dsimp only
        split
        · next result _ =>
          obtain ⟨hcomplete, hqueued⟩ := htaken.complete ⟨t, (starting t.id).dequeueAt - t.submittedAt,
            (starting t.id).start⟩ rfl result (starting t.id).doneAt (starting t.id).totalAt
          obtain ⟨hinner, hinnerLe, _⟩ := ih hcomplete
          obtain ⟨houter, houterLe, hfull⟩ := ih hinner
          exact ⟨houter, by omega, fun hfuel => hfull (by omega)⟩
        · obtain ⟨hpumped, hle, hfull⟩ := ih (htaken.await ⟨t, (starting t.id).dequeueAt - t.submittedAt,
            (starting t.id).start⟩ rfl)
          have hsame : ∀ x, (taken.await x).queued = taken.queued := fun _ => rfl
          rw [hsame] at hle hfull
          exact ⟨hpumped, by omega, fun hfuel => hfull (by omega)⟩
    · exact ⟨h, le_refl _, fun _ => .inr (not_lt.mp hslot)⟩

lemma Level.push {priority : Priority} {tasks : List QueuedTask} (h : Level priority tasks) (ht : t.priority = priority)
    (hlast : ∀ u ∈ tasks, u.id < t.id) : Level priority (tasks ++ [t]) := by
  constructor
  · rw [List.forall_mem_append, List.forall_mem_singleton]
    exact ⟨h.1, ht⟩
  · rw [List.pairwise_append]
    refine ⟨h.2, List.pairwise_singleton _ _, fun u hu v hv => ?_⟩
    obtain rfl := List.mem_singleton.mp hv
    exact hlast u hu

/-- A pushed task joins its level, and nothing else changes. -/
lemma push_cases (p : TaskPool) (t : QueuedTask) (hlast : ∀ u ∈ p.waiting, u.id < t.id) (hhigh : Level .high p.high)
    (hnormal : Level .normal p.normal) (hlow : Level .low p.low) :
    (p.push t).waiting.Perm (t :: p.waiting) ∧ Level .high (p.push t).high ∧ Level .normal (p.push t).normal ∧
      Level .low (p.push t).low ∧
        p.push t = { p with high := (p.push t).high, normal := (p.push t).normal, low := (p.push t).low } := by
  simp only [TaskPool.waiting, List.forall_mem_append] at hlast
  obtain ⟨⟨hh, hn⟩, hl⟩ := hlast
  unfold TaskPool.push
  cases hpriority : t.priority with
  | high =>
    refine ⟨?_, hhigh.push hpriority hh, hnormal, hlow, rfl⟩
    simp only [TaskPool.waiting, List.append_assoc]
    exact List.perm_middle
  | normal =>
    refine ⟨?_, hhigh, hnormal.push hpriority hn, hlow, rfl⟩
    simp only [TaskPool.waiting, ← List.append_assoc]
    rw [List.append_assoc]
    exact List.perm_middle
  | low =>
    refine ⟨?_, hhigh, hnormal, hlow.push hpriority hl, rfl⟩
    simp only [TaskPool.waiting, ← List.append_assoc]
    exact List.perm_append_singleton _ _

lemma Core.ids (h : Core [] p) : ∀ u ∈ p.waiting, u.id ≤ p.seq := by
  intro u hu
  have hmem : TaskId.task u.id ∈ p.promises := by
    refine h.once.mem_iff.mp ?_
    simp only [List.map_nil, List.nil_append]
    exact List.mem_append_left _ (List.mem_append_left _ (List.mem_map.mpr ⟨u, hu, rfl⟩))
  rw [TaskPool.promises, h.promised, List.mem_map] at hmem
  obtain ⟨i, hi, heq⟩ := hmem
  obtain ⟨j, hj, rfl⟩ := List.mem_map.mp hi
  have hid := TaskId.task.inj heq
  have hlt := List.mem_range.mp hj
  omega

lemma Core.logged {s : Submission} (h : Core [] p) (hnone : s.answer.promised? = none)
    (hnamed : s.named = true → s.answer.accepted = false ∧ p.capacity * SATURATION_FACTOR ≤ s.queued + s.running)
    (hinvalid : s.named = false → ∃ req, s.answer = .invalid (TaskPool.invalidResult req)) :
    Core [] { p with submissions := p.submissions ++ [s] } where
  slots := h.slots
  le := h.le
  peak := h.peak
  high := h.high
  normal := h.normal
  low := h.low
  ordered := h.ordered
  resolvers := h.resolvers
  once := by
    have hpromises : ({ p with submissions := p.submissions ++ [s] } : TaskPool).promises = p.promises := by
      simp [TaskPool.promises, hnone]
    rw [hpromises]
    exact h.once
  promised := by
    rw [List.filterMap_append, h.promised]
    simp [hnone]
  completed := h.completed
  finished := h.finished
  rejected := by
    rw [List.forall_mem_append, List.forall_mem_singleton]
    exact ⟨h.rejected, fun hs => iff_of_true (hnamed hs).1 (hnamed hs).2⟩
  invalid := by
    rw [List.forall_mem_append, List.forall_mem_singleton]
    refine ⟨h.invalid, fun hs => ?_, hinvalid⟩
    rw [hnone, (hnamed hs).1]
    rfl

lemma Core.admitted (h : Core [] p) (hroom : ¬ p.capacity * SATURATION_FACTOR ≤ p.queued + p.runningSlots) (op : JsString)
    (req : Value) (now : ℤ) : Core [] (p.admitTask op req now) := by
  let s : Submission := ⟨true, p.queued, p.runningSlots, .promised (p.seq + 1)⟩
  let task : QueuedTask := ⟨p.seq + 1, op, optionalProperty req "payload",
    normalizePriority (optionalProperty req "priority"), clampMs (clampDeadline (optionalProperty req "deadlineMs")), now⟩
  let logged : TaskPool := { p with submissions := p.submissions ++ [s], seq := p.seq + 1 }
  have hlast : ∀ u ∈ logged.waiting, u.id < task.id := fun u hu => Nat.lt_succ_of_le (h.ids u hu)
  obtain ⟨hwaiting, hhigh, hnormal, hlow, hsame⟩ := push_cases logged task hlast h.high h.normal h.low
  have heq : p.admitTask op req now = { logged.push task with resolvers := (logged.push task).resolvers ++ [task.id] } := rfl
  have hexecuting : (logged.push task).executing = p.executing := by rw [hsame]
  have hresolved : (logged.push task).resolved = p.resolved := by rw [hsame]
  have hsubmissions : (logged.push task).submissions = p.submissions ++ [s] := by rw [hsame]
  have hresolvers : (logged.push task).resolvers = p.resolvers := by rw [hsame]
  have hpromises : p.promises ++ [TaskId.task task.id] = (logged.push task).promises := by
    rw [TaskPool.promises, TaskPool.promises, hsubmissions, List.filterMap_append, List.map_append]
    rfl
  rw [heq]
  refine ⟨?_, ?_, ?_, hhigh, hnormal, hlow, ?_, ?_, ?_, ?_, ?_, ?_, ?_, ?_⟩
  · change (logged.push task).runningSlots = (logged.push task).executing.length + 0
    rw [hsame]
    exact h.slots
  · change (logged.push task).runningSlots ≤ (logged.push task).capacity
    rw [hsame]
    exact h.le
  · change ∀ s ∈ (logged.push task).starts, s.executing ≤ (logged.push task).capacity
    rw [hsame]
    exact h.peak
  · change ∀ s ∈ (logged.push task).starts, ∀ u ∈ s.waiting, s.task.Precedes u
    rw [hsame]
    exact h.ordered
  · change ((logged.push task).resolvers ++ [task.id]).Perm ((logged.push task).waiting.map QueuedTask.id ++
      (logged.push task).executing.map fun x => x.task.id)
    rw [hresolvers, hexecuting]
    refine (List.perm_append_singleton _ _).trans (List.Perm.trans (h.resolvers.cons _) ?_)
    exact ((hwaiting.map QueuedTask.id).symm).append_right _
  · change ((logged.push task).open ++ (logged.push task).resolved.map TaskResult.taskId).Perm (logged.push task).promises
    rw [TaskPool.open, hexecuting, hresolved, ← hpromises]
    refine List.Perm.trans ?_ ((List.perm_append_singleton _ _).symm.trans ((h.once).append_right _))
    exact ((hwaiting.map fun t => TaskId.task t.id).append_right _).append_right _
  · change (logged.push task).submissions.filterMap _ = (List.range (logged.push task).seq).map _
    have hseq : (logged.push task).seq = p.seq + 1 := by rw [hsame]
    rw [hsubmissions, hseq, List.filterMap_append, h.promised, List.range_succ, List.map_append]
    rfl
  · change (logged.push task).counts.completed = (logged.push task).counts.ok + (logged.push task).counts.timeouts +
      (logged.push task).counts.errors
    rw [hsame]
    exact h.completed
  · change (logged.push task).counts.completed = (logged.push task).resolved.length
    rw [hsame]
    exact h.finished
  · change ∀ s ∈ (logged.push task).submissions, s.named = true →
      (s.answer.accepted = false ↔ (logged.push task).capacity * SATURATION_FACTOR ≤ s.queued + s.running)
    have hcapacity : (logged.push task).capacity = p.capacity := by rw [hsame]
    rw [hsubmissions, hcapacity, List.forall_mem_append, List.forall_mem_singleton]
    exact ⟨h.rejected, fun _ => iff_of_false (by simp [s, Answer.accepted]) hroom⟩
  · change ∀ s ∈ (logged.push task).submissions, _
    rw [hsubmissions, List.forall_mem_append, List.forall_mem_singleton]
    exact ⟨h.invalid, fun _ => rfl, fun hs => by cases hs⟩

/-- Between two events no slot is free while a task waits. -/
def Settled (p : TaskPool) : Prop := p.queued = 0 ∨ p.capacity ≤ p.runningSlots

lemma Core.submit (h : Core [] p) (hsettled : Settled p) (req : Value) (now : ℤ) :
    Core [] (p.submit starting req now) ∧ Settled (p.submit starting req now) := by
  unfold TaskPool.submit
  split
  · next u rest _ =>
    split_ifs with hfull
    · have hlogged := h.logged (s := ⟨true, p.queued, p.runningSlots, .saturated p.queued p.runningSlots p.capacity⟩) rfl
        (fun _ => ⟨rfl, hfull⟩) fun hs => by cases hs
      exact ⟨{ hlogged with }, hsettled⟩
    · obtain ⟨hcore, _, hend⟩ := (h.admitted hfull (u :: rest) req now).pump starting
        ((p.admitTask (u :: rest) req now).queued + 1)
      exact ⟨hcore, hend (Nat.lt_succ_self _)⟩
  · exact ⟨h.logged (s := ⟨false, p.queued, p.runningSlots, .invalid (TaskPool.invalidResult req)⟩) rfl
      (fun hs => by cases hs) fun _ => ⟨req, rfl⟩, hsettled⟩

lemma Core.release {id : ℕ} {x : Execution} (h : Core [] p) (hx : p.executing.find? (fun x => x.task.id = id) = some x) :
    Core [x.task] { p with executing := p.executing.eraseP fun x => x.task.id = id } := by
  obtain ⟨hid, before, after, hsplit, hbefore⟩ := List.find?_eq_some_iff_append.mp hx
  have herase : p.executing.eraseP (fun x => x.task.id = id) = before ++ after := by
    have hnot : ∀ y ∈ before, ¬ (decide (y.task.id = id) = true) := fun y hy => by simpa using hbefore y hy
    rw [hsplit, List.eraseP_append_right _ hnot, List.eraseP_cons, hid, cond_true]
  rw [herase]
  refine ⟨?_, h.le, h.peak, h.high, h.normal, h.low, h.ordered, ?_, ?_, h.promised, h.completed, h.finished, h.rejected,
    h.invalid⟩
  · have hslots := h.slots
    rw [hsplit] at hslots
    simp only [List.length_append, List.length_cons, List.length_nil] at hslots ⊢
    omega
  · refine h.resolvers.trans ?_
    rw [hsplit]
    simp only [List.map_nil, List.nil_append, List.map_append, List.map_cons, List.singleton_append]
    change (p.waiting.map QueuedTask.id ++ _).Perm (x.task.id :: (p.waiting.map QueuedTask.id ++ _))
    rw [← List.append_assoc, ← List.append_assoc]
    exact List.perm_middle
  · refine List.Perm.trans ?_ h.once
    simp only [TaskPool.open, hsplit, List.map_nil, List.nil_append, List.map_append, List.map_cons,
      List.singleton_append]
    change (TaskId.task x.task.id :: (p.waiting.map _ ++ _ ++ _)).Perm (p.waiting.map _ ++ _ ++ _)
    simp only [← List.append_assoc]
    exact List.perm_middle.symm.append_right _

lemma Core.settle {id : ℕ} {outcome : TaskPool.CallOutcome} {doneAt totalAt : ℤ} (h : Core [] p)
    (hsettle : p.settle starting id outcome doneAt totalAt = some q) : Core [] q ∧ Settled q := by
  unfold TaskPool.settle at hsettle
  split at hsettle
  · cases hsettle
  · next x hx =>
    cases hsettle
    obtain ⟨hcomplete, _⟩ := (h.release hx).complete x rfl (outcome.result x.task.op) doneAt totalAt
    obtain ⟨hcore, _, hend⟩ := hcomplete.pump starting (TaskPool.queued _ + 1)
    exact ⟨hcore, hend (Nat.lt_succ_self _)⟩

lemma Core.start (capacity : ℕ) : Core [] { capacity := capacity } where
  slots := rfl
  le := Nat.zero_le _
  peak := List.forall_mem_nil _
  high := ⟨List.forall_mem_nil _, .nil⟩
  normal := ⟨List.forall_mem_nil _, .nil⟩
  low := ⟨List.forall_mem_nil _, .nil⟩
  ordered := List.forall_mem_nil _
  resolvers := List.Perm.refl []
  once := List.Perm.refl []
  promised := rfl
  completed := rfl
  finished := rfl
  rejected := List.forall_mem_nil _
  invalid := List.forall_mem_nil _

lemma core_reachable (h : (TaskPool.system starting).Reachable System.free p) : Core [] p ∧ Settled p := by
  refine h.invariant (P := fun p => Core [] p ∧ Settled p) ?_ ?_
  · rintro s ⟨capacity, _, rfl⟩
    exact ⟨Core.start capacity, .inl rfl⟩
  · intro s e t _ hs _ hstep
    cases e with
    | submit req now =>
      cases hstep
      exact hs.1.submit hs.2 req now
    | settle id outcome doneAt totalAt => exact hs.1.settle hstep

lemma Core.bounded (h : Core [] p) (hsettled : Settled p) : Bounded Submission.named p where
  executing := by
    have hslots : p.runningSlots = p.executing.length := h.slots
    exact ⟨hslots.symm.trans_le h.le, h.peak⟩
  rejected := h.rejected
  busy hfree := by
    have hslots : p.runningSlots = p.executing.length := h.slots
    exact hsettled.resolve_right (by omega)
  ordered := h.ordered
  once := by
    refine ⟨h.once, ?_⟩
    rw [TaskPool.promises, h.promised, List.map_map]
    exact List.nodup_range.map fun a b hab => Nat.succ.inj (TaskId.task.inj hab)
  completed := h.completed
  accounted := by
    have hslots : p.runningSlots = p.executing.length := h.slots
    have hlength : p.waiting.length + p.executing.length + p.resolved.length =
        (p.submissions.filterMap fun s => s.answer.promised?).length := by
      simpa [TaskPool.open, TaskPool.promises, add_assoc] using h.once.length_eq
    rw [queued_eq, h.finished, hslots, hlength, List.length_filterMap_eq_countP, List.countP_eq_length_filter]
    refine congrArg List.length (List.filter_congr fun s hs => ?_)
    obtain ⟨hnamed, hother⟩ := h.invalid s hs
    cases hname : s.named with
    | true => rw [hnamed hname, Bool.true_and]
    | false =>
      obtain ⟨req, hreq⟩ := hother hname
      rw [hreq]
      rfl

lemma complete_capacity (p : TaskPool) (x : Execution) (result : PortResult) (doneAt totalAt : ℤ) :
    (p.complete x result doneAt totalAt).capacity = p.capacity := by
  unfold TaskPool.complete
  dsimp only
  split_ifs <;> rfl

lemma pump_capacity (fuel : ℕ) : (TaskPool.pump starting fuel p).capacity = p.capacity := by
  induction fuel generalizing p with
  | zero => rfl
  | succ fuel ih =>
    unfold TaskPool.pump
    split_ifs
    · split
      · rfl
      · next t taken htake =>
        have htaken : taken.capacity = p.capacity := by
          unfold TaskPool.take at htake
          split at htake <;> cases htake <;> rfl
        dsimp only
        split
        · rw [ih, ih, complete_capacity, htaken]
        · rw [ih, ← htaken]
          rfl
    · rfl

lemma step_capacity {e : TaskPool.Event} (h : (TaskPool.system starting).step p e = some q) : q.capacity = p.capacity := by
  cases e with
  | submit req now =>
    cases h
    unfold TaskPool.submit
    split
    · split_ifs
      · rfl
      · rw [pump_capacity]
        unfold TaskPool.admitTask TaskPool.push
        dsimp only
        split <;> rfl
    · rfl
  | settle id outcome doneAt totalAt =>
    change p.settle starting id outcome doneAt totalAt = some q at h
    unfold TaskPool.settle at h
    split at h
    · cases h
    · cases h
      rw [pump_capacity, complete_capacity]

/-- No call is awaited, so every promise is resolved. -/
lemma Core.quiet (h : Core [] p) (hsettled : Settled p) (hcapacity : 1 ≤ p.capacity) (hquiet : p.executing = []) :
    (p.resolved.map TaskResult.taskId).Perm p.promises := by
  have hslots : p.runningSlots = p.executing.length := h.slots
  rw [hquiet, List.length_nil] at hslots
  have hnone : p.queued = 0 := hsettled.resolve_right (by omega)
  have hwaiting : p.waiting = [] := List.eq_nil_of_length_eq_zero (queued_eq p ▸ hnone)
  have hperm := h.once
  rw [TaskPool.open, hwaiting, hquiet] at hperm
  exact hperm

theorem executor_bounded (h : (TaskPool.system starting).Reachable System.free p) :
    Bounded Submission.named p ∧ (p.executing = [] → (p.resolved.map TaskResult.taskId).Perm p.promises) ∧
      ∀ s ∈ p.submissions, s.named = false → ∃ req, s.answer = .invalid (TaskPool.invalidResult req) := by
  obtain ⟨hcore, hsettled⟩ := core_reachable h
  have hcapacity : 1 ≤ p.capacity := by
    refine h.invariant (P := fun p => 1 ≤ p.capacity) ?_ ?_
    · rintro s ⟨capacity, hpos, rfl⟩
      exact hpos
    · intro s e t _ hs _ hstep
      rw [step_capacity hstep]
      exact hs
  exact ⟨hcore.bounded hsettled, hcore.quiet hsettled hcapacity,
    fun s hs => (hcore.invalid s hs).2⟩

/-- A pool of one slot, to which one request is made while its clock stands still. -/
def once (op : String) : TaskPool :=
  ({ capacity := 1 } : TaskPool).submit (fun _ => ⟨0, 0, none, 0, 0⟩) (.object [(ofText "op", .string (ofText op))]) 0

lemma once_reachable (op : String) : (TaskPool.system fun _ => ⟨0, 0, none, 0, 0⟩).Reachable System.free (once op) :=
  .next (.start ⟨1, le_refl _, rfl⟩) trivial (e := .submit (.object [(ofText "op", .string (ofText op))]) 0) rfl

theorem executor_runs : Bounded Submission.named (once "mail.send") ∧
    ((once "mail.send").executing = [] →
      ((once "mail.send").resolved.map TaskResult.taskId).Perm (once "mail.send").promises) ∧
        ∀ s ∈ (once "mail.send").submissions, s.named = false → ∃ req, s.answer = .invalid (TaskPool.invalidResult req) :=
  executor_bounded (once_reachable "mail.send")

theorem empty_op_uncounted : (TaskPool.system fun _ => ⟨0, 0, none, 0, 0⟩).Reachable System.free (once "") ∧
    ¬ Bounded (fun _ => true) (once "") := by
  refine ⟨once_reachable "", fun h => ?_⟩
  have haccounted := h.accounted
  exact absurd haccounted (by decide)

end Law

end VivimOmega.Run

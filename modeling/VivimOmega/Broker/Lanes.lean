import VivimOmega.Broker.Config
import VivimOmega.Library.Transition

/-! The lanes of the process broker: child processes that carry one call at a time. -/

namespace VivimOmega.Broker

open Library

structure Lane where
  pool : String
  busy : Bool
  ready : Bool
  malformed : ℕ
  /-- The handle was killed, or its child has exited. -/
  closed : Bool
  exited : Bool
  /-- The readiness gate is still to fire. -/
  armed : Bool
  pending : List ℕ

def Lane.spawned (pool : String) : Lane := ⟨pool, true, false, 0, false, false, true, []⟩

inductive LaneFailure
  | exited | flooded | notReady | unwritable
  deriving DecidableEq

/-- What a call was resolved by; a frame's result is ok or not. -/
inductive Settled
  | returned (lane id : ℕ) (ok : Bool)
  | failed (lane : ℕ) (failure : LaneFailure)
  | deadline
  deriving DecidableEq

structure Job where
  pool : String
  lane : ℕ
  written : Bool
  result : Option Settled
  resumed : Bool
  expired : Bool

structure State where
  lanes : ℕ → Lane
  spawned : ℕ
  members : String → List ℕ
  jobs : ℕ → Job
  nextId : ℕ
  shutDown : Bool

inductive Frame
  | ready
  | returned (id : ℕ) (ok : Bool)
  | noise
  deriving DecidableEq

inductive Event
  | call (req : ProcessCallRequest)
  | chunk (lane : ℕ) (frames : List Frame)
  | exit (lane : ℕ)
  | startTimeout (lane : ℕ)
  | deadline (id : ℕ)
  | shutdown

namespace State

variable (s : State)

def setLane (l : ℕ) (lane : Lane) : State := { s with lanes := Function.update s.lanes l lane }

def resolveJob (j : Job) (c : Settled) : Job := if j.result.isNone then { j with result := some c } else j

/-- Only the first resolution of a call counts. -/
def resolve (ids : List ℕ) (c : Settled) : State :=
  { s with jobs := fun id => if id ∈ ids then resolveJob (s.jobs id) c else s.jobs id }

def settlePending (l : ℕ) (failure : LaneFailure) : State :=
  (s.resolve (s.lanes l).pending (.failed l failure)).setLane l { s.lanes l with pending := [] }

/-- The lane leaves its pool and its child is killed. -/
def retire (l : ℕ) : State :=
  { s.setLane l { s.lanes l with closed := true } with
    members := Function.update s.members (s.lanes l).pool ((s.members (s.lanes l).pool).erase l) }

def flagMalformed (l : ℕ) : State :=
  let flagged := s.setLane l { s.lanes l with malformed := (s.lanes l).malformed + 1 }
  if malformedLimit < (s.lanes l).malformed + 1 then (flagged.settlePending l .flooded).retire l else flagged

def frame (l : ℕ) (s : State) : Frame → State
  | .ready => s.setLane l { s.lanes l with ready := true }
  | .returned id ok =>
    if id ∈ (s.lanes l).pending then
      (s.setLane l { s.lanes l with pending := (s.lanes l).pending.erase id }).resolve [id] (.returned l id ok)
    else s
  | .noise => s.flagMalformed l

def exit (l : ℕ) : State :=
  let settled := s.settlePending l .exited
  settled.setLane l { settled.lanes l with closed := true, exited := true, armed := false }

def startTimeout (l : ℕ) : State :=
  let disarmed := s.setLane l { s.lanes l with armed := false }
  if (s.lanes l).ready then disarmed else (disarmed.settlePending l .notReady).retire l

def deadline (id : ℕ) : State :=
  ({ s with jobs := Function.update s.jobs id { s.jobs id with expired := true } }).resolve [id] .deadline

def isOk : Settled → Bool
  | .returned _ _ ok => ok
  | _ => false

def comeBack (id : ℕ) : State := { s with jobs := Function.update s.jobs id { s.jobs id with resumed := true } }

/-- What `call` goes on with when its race is decided. -/
def resume (id : ℕ) : State :=
  match (s.jobs id).result, (s.jobs id).resumed with
  | some c, false =>
    let l := (s.jobs id).lane
    if !isOk c || 0 < (s.lanes l).malformed then (s.comeBack id).retire l
    else (s.comeBack id).setLane l { s.lanes l with busy := false }
  | _, _ => s

/-- The calls that were resolved go on before the next event. -/
def drain : State := (List.range s.nextId).foldl resume s

def free (l : ℕ) : Bool := !(s.lanes l).busy && (s.lanes l).ready && (s.lanes l).malformed = 0

def spawnLane (pool : String) : State :=
  { s with
    lanes := Function.update s.lanes s.spawned (.spawned pool)
    spawned := s.spawned + 1
    members := Function.update s.members pool (s.members pool ++ [s.spawned]) }

/-- The first free lane, else a new one where there is room. -/
def checkout (pool : String) (size : ℕ) : Option (State × ℕ) :=
  match (s.members pool).find? s.free with
  | some l => some (s.setLane l { s.lanes l with busy := true }, l)
  | none => if size ≤ (s.members pool).length then none else some (s.spawnLane pool, s.spawned)

/-- The call is pending on its lane, and written there unless the handle is closed. -/
def dispatch (pool : String) (l : ℕ) : State :=
  let pending := { s.setLane l { s.lanes l with pending := (s.lanes l).pending ++ [s.nextId] } with
    jobs := Function.update s.jobs s.nextId ⟨pool, l, !(s.lanes l).closed, none, false, false⟩
    nextId := s.nextId + 1 }
  if (s.lanes l).closed then pending.resolve [s.nextId] (.failed l .unwritable) else pending

end State

/-- A call that no lane was found for is answered at once. -/
def call (pools : Pools) (s : State) (req : ProcessCallRequest) : State :=
  match checkRequest pools s.shutDown req with
  | .error _ => s
  | .ok a =>
    match s.checkout a.pool a.cfg.size with
    | none => s
    | some (t, l) => t.dispatch a.pool l

def handle (pools : Pools) (s : State) : Event → Option State
  | .call req => some (call pools s req)
  | .chunk l frames => if l < s.spawned then some (frames.foldl (State.frame l) s) else none
  | .exit l => if l < s.spawned ∧ (s.lanes l).exited = false then some (s.exit l) else none
  | .startTimeout l => if l < s.spawned ∧ (s.lanes l).armed = true then some (s.startTimeout l) else none
  | .deadline id => if id < s.nextId ∧ (s.jobs id).expired = false then some (s.deadline id) else none
  | .shutdown => some { s with shutDown := true, members := fun _ => [] }

def start : State where
  lanes _ := ⟨"", false, false, 0, false, false, false, []⟩
  spawned := 0
  members _ := []
  jobs _ := ⟨"", 0, false, none, true, true⟩
  nextId := 1
  shutDown := false

def broker (pools : Pools) : System State Event where
  init s := s = start
  step s e := (handle pools s e).map State.drain

end VivimOmega.Broker

import VivimOmega.Contracts.Port
import VivimOmega.Library.OrderedMap

/-! The delivery tables of the port router: admission slots, waiting queues, deadline timers and
the promises they settle. -/

namespace VivimOmega.Host

open Library Contracts

abbrev CausationId := String

structure DeliverMsg where
  causationId : CausationId
  op : String
  payload : JsValue
  deadlineMs : ℕ
  sender : String

structure CallMsg where
  callId : String
  capabilityToken : String
  op : String
  payload : JsValue
  deadlineMs : ℕ

inductive ToWorker
  | init (tokens : List (String × String)) (capabilities : List String) (config : Option JsValue)
  | deliver (msg : DeliverMsg)
  | result (callId : String) (result : PortResult)
  | shutdown

inductive FromWorker
  | ready
  | call (msg : CallMsg)
  | ret (causationId : CausationId) (result : PortResult)
  | chunk (causationId : CausationId) (chunk : StreamChunk)

/-- What crosses the boundary between the router and the compartment of an id. -/
inductive Wire
  | posted (id : String) (msg : ToWorker)
  | received (id : String) (msg : FromWorker)

structure Delivery where
  targetId : String
  msg : DeliverMsg
  onChunk : Bool
  resolve : ℕ
  priority : PortPriority
  acceptedAt : ℕ

namespace Delivery

abbrev key (d : Delivery) : CausationId := d.msg.causationId

def due (d : Delivery) : ℕ := d.acceptedAt + d.msg.deadlineMs

/-- The deadline has passed while the item was waiting. -/
def Expired (d : Delivery) (now : ℕ) : Prop := 0 < d.msg.deadlineMs ∧ d.due ≤ now

instance (d : Delivery) (now : ℕ) : Decidable (d.Expired now) :=
  inferInstanceAs (Decidable (_ ∧ _))

def timer (d : Delivery) : Option ℕ := if 0 < d.msg.deadlineMs then some d.resolve else none

end Delivery

structure Pending where
  resolve : ℕ
  timer : Option ℕ
  onChunk : Bool

/-- The tables, the clock, and what has crossed the wire or been settled so far. Promises are
numbered in the order of the calls of `deliver` that return them; an armed timer is filed under
the promise of the delivery its callback closes over. -/
structure Ports where
  pending : OrderedMap CausationId Pending := .empty
  inflightByCompartment : OrderedMap String (List CausationId) := .empty
  waiting : OrderedMap String (List Delivery) := .empty
  timers : OrderedMap ℕ Delivery := .empty
  delivered : OrderedMap String ℕ := .empty
  now : ℕ := 0
  accepted : List Delivery := []
  resolved : List (ℕ × PortResult) := []
  chunks : List (ℕ × StreamChunk) := []
  trace : List Wire := []

namespace Ports

variable (P : Ports)

def inflight (id : String) : List CausationId := (P.inflightByCompartment.get? id).getD []

def queue (id : String) : List Delivery := (P.waiting.get? id).getD []

def post (id : String) (msg : ToWorker) : Ports := { P with trace := .posted id msg :: P.trace }

def receive (id : String) (msg : FromWorker) : Ports :=
  { P with trace := .received id msg :: P.trace }

def settle (p : ℕ) (r : PortResult) : Ports :=
  { P with resolved := P.resolved ++ [(p, r)] }

def incInflight (id : String) (key : CausationId) : Ports :=
  { P with
    inflightByCompartment := P.inflightByCompartment.set id
      (if key ∈ P.inflight id then P.inflight id else P.inflight id ++ [key]) }

def decInflight (id : String) (key : CausationId) : Ports :=
  { P with
    inflightByCompartment := match P.inflightByCompartment.get? id with
      | none => P.inflightByCompartment
      | some keys => P.inflightByCompartment.set id (keys.filter (· ≠ key)) }

def setQueue (id : String) (q : List Delivery) : Ports := { P with waiting := P.waiting.set id q }

def dropQueue (id : String) : Ports := { P with waiting := P.waiting.delete id }

def clearTimer (timer : Option ℕ) : Ports :=
  { P with
    timers := match timer with
      | none => P.timers
      | some t => P.timers.delete t }

def deletePending (key : CausationId) : Ports := { P with pending := P.pending.delete key }

/-- The branch of `admit` that hands the item to its compartment. -/
def start (d : Delivery) : Ports :=
  let counted := { P with
    delivered := P.delivered.set d.targetId ((P.delivered.get? d.targetId).getD 0 + 1)
    timers := if 0 < d.msg.deadlineMs then P.timers.set d.resolve d else P.timers
    pending := P.pending.set d.key { resolve := d.resolve, timer := d.timer, onChunk := d.onChunk } }
  (counted.incInflight d.targetId d.key).post d.targetId (.deliver d.msg)

def expiredInQueue (d : Delivery) : PortResult :=
  .fail .budget s!"deadline {d.msg.deadlineMs}ms exceeded in queue (op {d.msg.op})"

def deadlineExceeded (d : Delivery) : PortResult :=
  .fail .budget s!"deadline {d.msg.deadlineMs}ms exceeded (op {d.msg.op})"

/-- The chain of `admit` and `release` over the items a freed slot shifts off the queue: expired
ones are settled, the first live one takes the slot. -/
def drain (target : String) : Ports → List Delivery → Ports
  | P, [] => P.setQueue target []
  | P, d :: rest =>
    if d.Expired P.now then
      drain target ((P.settle d.resolve (expiredInQueue d)).decInflight target "") rest
    else (P.setQueue target rest).start d

def release (target : String) (key : CausationId) : Ports :=
  drain target (P.decInflight target key) (P.queue target)

def admitItem (d : Delivery) : Ports :=
  if d.Expired P.now then (P.settle d.resolve (expiredInQueue d)).release d.targetId ""
  else P.start d

/-- Before the first normal item if the new one is on the gate tier, else at the end. -/
def insertByPriority (d : Delivery) (q : List Delivery) : List Delivery :=
  match q.findIdx? (fun w => w.priority = .normal && d.priority = .gate) with
  | none => q ++ [d]
  | some i => q.take i ++ d :: q.drop i

def enqueue (cap : ℕ) (d : Delivery) : Ports :=
  if (P.inflight d.targetId).length < cap then P.admitItem d
  else P.setQueue d.targetId (insertByPriority d (P.queue d.targetId))

def nextPromise : ℕ := P.accepted.length

/-- The item `deliver` enqueues for the promise it returns. -/
def newDelivery (target : String) (msg : DeliverMsg) (onChunk : Bool) (priority : PortPriority) :
    Delivery :=
  { targetId := target, msg, onChunk, resolve := P.nextPromise, priority, acceptedAt := P.now }

def accept (cap : ℕ) (target : String) (msg : DeliverMsg) (onChunk : Bool)
    (priority : PortPriority) : Ports :=
  let d := P.newDelivery target msg onChunk priority
  ({ P with accepted := P.accepted ++ [d] } : Ports).enqueue cap d

def onReturn (pluginId : String) (key : CausationId) (result : PortResult) : Ports :=
  match P.pending.get? key with
  | none => P
  | some p =>
    (((P.clearTimer p.timer).deletePending key).release pluginId key).settle p.resolve result

def onChunk (key : CausationId) (chunk : StreamChunk) : Ports :=
  match P.pending.get? key with
  | none => P
  | some p => if p.onChunk then { P with chunks := P.chunks ++ [(p.resolve, chunk)] } else P

/-- The callback of a deadline timer. -/
def onDeadline (d : Delivery) : Ports :=
  let fired := P.clearTimer (some d.resolve)
  if fired.pending.has d.key then
    ((fired.deletePending d.key).release d.targetId d.key).settle d.resolve (deadlineExceeded d)
  else fired

def failWaiting (r : PortResult) : Ports → List Delivery → Ports
  | P, [] => P
  | P, d :: rest => failWaiting r (P.settle d.resolve r) rest

def failKey (r : PortResult) (P : Ports) (key : CausationId) : Ports :=
  match P.pending.get? key with
  | none => P
  | some p => ((P.clearTimer p.timer).deletePending key).settle p.resolve r

def failInflight (id : String) (reason : String) : Ports :=
  let r := PortResult.fail .degraded reason
  let unqueued := (failWaiting r P (P.queue id)).dropQueue id
  let failed := (unqueued.inflight id).foldl (failKey r) unqueued
  { failed with
    inflightByCompartment := match failed.inflightByCompartment.get? id with
      | none => failed.inflightByCompartment
      | some _ => failed.inflightByCompartment.set id [] }

/-- The causation id was handed to the compartment at some point. -/
def deliveredTo (id : String) (c : CausationId) : Bool :=
  P.trace.any fun
    | .posted id' (.deliver msg) => id' = id && msg.causationId = c
    | _ => false

def advance (ms : ℕ) : Ports := { P with now := P.now + ms }

end Ports

end VivimOmega.Host

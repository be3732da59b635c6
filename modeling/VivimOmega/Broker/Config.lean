import VivimOmega.Contracts.Port
import VivimOmega.Library.OrderedMap

/-! The pools of the process broker: what the signed config declares, and what a call may ask. -/

namespace VivimOmega.Broker

open Library Contracts

def malformedLimit : ℕ := 5

def maxDeadlineMs : ℕ := 60000

structure BrokerPoolConfig where
  id : String
  cmd : List String
  poolSize : Option ℕ
  ops : Option (List String)
  startTimeoutMs : Option ℚ
  cmd_ne : cmd ≠ []
  size_bounds : ∀ n ∈ poolSize, 1 ≤ n ∧ n ≤ 4

def BrokerPoolConfig.size (c : BrokerPoolConfig) : ℕ := c.poolSize.getD 1

lemma BrokerPoolConfig.size_pos (c : BrokerPoolConfig) : 0 < c.size := by
  rw [size]
  cases hsize : c.poolSize with
  | none => exact Nat.one_pos
  | some n => exact (c.size_bounds n hsize).1

abbrev Pools := OrderedMap String BrokerPoolConfig

section Parsing

def isAlnum (c : Char) : Bool := 'a' ≤ c && c ≤ 'z' || '0' ≤ c && c ≤ '9'

/-- Lower case letters, digits and inner dashes. -/
def isPoolId (s : String) : Bool :=
  s.toList.all (fun c => isAlnum c || c = '-') && s.toList.head?.any isAlnum && s.toList.getLast?.any isAlnum

/-- An array of non-empty texts. -/
def texts? : JsValue → Option (List String)
  | .arr items => items.mapM fun v => v.string?.filter (· ≠ "")
  | _ => none

def cmdOf (id : String) (v : JsValue) : Except String {cmd : List String // cmd ≠ []} :=
  match texts? v with
  | some (bin :: args) => return ⟨bin :: args, List.cons_ne_nil _ _⟩
  | _ => throw ("process-broker: pool " ++ id ++ ": cmd must be a non-empty array of non-empty strings")

def poolSizeOf (id : String) (v : JsValue) : Except String {n : Option ℕ // ∀ m ∈ n, 1 ≤ m ∧ m ≤ 4} :=
  match v with
  | .undefined => return ⟨none, fun m hm => by cases hm⟩
  | .num q =>
    if h : q.den = 1 ∧ 1 ≤ q.num ∧ q.num ≤ 4 then
      return ⟨some q.num.toNat, fun m hm => by
        obtain rfl := Option.some.inj hm
        omega⟩
    else throw ("process-broker: pool " ++ id ++ ": poolSize must be an integer in [1,4] (got " ++ v.text ++ ")")
  | _ => throw ("process-broker: pool " ++ id ++ ": poolSize must be an integer in [1,4] (got " ++ v.text ++ ")")

def opsOf (id : String) (v : JsValue) : Except String (Option (List String)) :=
  if v.isUndefined then return none
  else match texts? v with
    | some ops => return some ops
    | none => throw ("process-broker: pool " ++ id ++ ": ops must be an array of non-empty strings when declared")

def startTimeoutOf (id : String) (v : JsValue) : Except String (Option ℚ) :=
  match v with
  | .undefined => return none
  | .num q =>
    if 250 ≤ q ∧ q ≤ 30000 then return some q
    else throw ("process-broker: pool " ++ id ++ ": startTimeoutMs must be a number in [250, 30000] (got " ++ v.text ++
      ")")
  | _ => throw ("process-broker: pool " ++ id ++ ": startTimeoutMs must be a number in [250, 30000] (got " ++ v.text ++
      ")")

def field (v : JsValue) (name : String) : Except String JsValue :=
  match v.prop? name with
  | some w => return w
  | none => throw ("TypeError: reading " ++ name)

def validatePool (pool : JsValue) : Except String BrokerPoolConfig := do
  match ← field pool "id" with
  | .str id =>
    if !isPoolId id then throw "process-broker: pool id must match /^[a-z0-9]([a-z0-9-]*[a-z0-9])?$/"
    else do
      let cmd ← cmdOf id (← field pool "cmd")
      match ← field pool "stdio" with
      | .str "ndjson" => do
        let size ← poolSizeOf id (← field pool "poolSize")
        let ops ← opsOf id (← field pool "ops")
        let startTimeoutMs ← startTimeoutOf id (← field pool "startTimeoutMs")
        return ⟨id, cmd.1, size.1, ops, startTimeoutMs, cmd.2, size.2⟩
      | _ => throw ("process-broker: pool " ++ id ++ ": stdio must be \"ndjson\"")
  | _ => throw "process-broker: pool id must match /^[a-z0-9]([a-z0-9-]*[a-z0-9])?$/"

def declarePool (pools : Pools) (item : JsValue) : Except String Pools := do
  let pool ← validatePool item
  if pools.has pool.id then throw ("process-broker: duplicate pool id " ++ pool.id)
  else return pools.set pool.id pool

def parseBrokerConfig (config : JsValue) : Except String Pools :=
  match (config.prop? "processPools").getD .undefined with
  | .undefined | .null => return .empty
  | .arr items => items.foldlM declarePool .empty
  | _ => throw "process-broker: config.processPools must be an array (fail-closed)"

end Parsing

structure ProcessCallRequest where
  pool : JsValue
  op : JsValue
  deadlineMs : JsValue

inductive Refused
  | shutDown
  | unknownPool (pool : String)
  | emptyOp
  | undeclaredOp (pool op : String) (ops : List String)
  | badDeadline
  deriving DecidableEq

/-- A call that may go to a lane of its pool. -/
structure Admitted where
  cfg : BrokerPoolConfig
  pool : String
  op : String
  deadlineMs : ℕ

def deadlineOf : JsValue → Option ℕ
  | .undefined => some 10000
  | .num q => if 50 ≤ q ∧ q ≤ maxDeadlineMs then some ⌊q⌋₊ else none
  | _ => none

/-- What is checked of a call before a lane is looked for. -/
def checkRequest (pools : Pools) (shutDown : Bool) (req : ProcessCallRequest) : Except Refused Admitted :=
  let pool := req.pool.string?.getD ""
  if shutDown then .error .shutDown
  else match pools.get? pool with
    | none => .error (.unknownPool pool)
    | some cfg =>
      match req.op.string?.filter (· ≠ "") with
      | none => .error .emptyOp
      | some op =>
        match cfg.ops.filter (op ∉ ·) with
        | some ops => .error (.undeclaredOp pool op ops)
        | none =>
          match deadlineOf req.deadlineMs with
          | none => .error .badDeadline
          | some deadlineMs => .ok ⟨cfg, pool, op, deadlineMs⟩

lemma checkRequest_pool {pools : Pools} {shutDown : Bool} {req : ProcessCallRequest} {a : Admitted}
    (h : checkRequest pools shutDown req = .ok a) : pools.get? a.pool = some a.cfg := by
  rw [checkRequest] at h
  split_ifs at h
  split at h
  · cases h
  · rename_i cfg hcfg
    split at h
    · cases h
    · split at h
      · cases h
      · split at h
        · cases h
        · obtain rfl := Except.ok.inj h
          exact hcfg

end VivimOmega.Broker

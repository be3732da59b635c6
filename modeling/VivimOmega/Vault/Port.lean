import VivimOmega.Library.Process
import VivimOmega.Vault.Readers
import VivimOmega.Contracts.Port

/-! The vault as the plugins see it through their ports: an append-only log of revisions. -/

namespace VivimOmega.Vault

open Library Library.Json Contracts

structure Revision where
  ns : String
  id : String
  data : Value
  metaData : Value

abbrev Log := List Revision

namespace Log

/-- The revisions of an object, the oldest first. -/
def revisions (log : Log) (ns id : String) : List Revision := log.filter fun r => r.ns = ns ∧ r.id = id

def latest? (log : Log) (ns id : String) : Option Revision := (log.revisions ns id).getLast?

def rev (log : Log) (ns id : String) : ℕ := (log.revisions ns id).length

/-- The ids of a namespace, each once and in ascending order. -/
def ids (log : Log) (ns : String) : List String :=
  ((log.filter fun r => r.ns = ns).map Revision.id).eraseDups.insertionSort fun a b => a ≤ b

variable (log : Log) (r : Revision)

lemma revisions_append (ns id : String) : Log.revisions (log ++ [r]) ns id =
    log.revisions ns id ++ if r.ns = ns ∧ r.id = id then [r] else [] := by
  rw [revisions, List.filter_append, List.filter_singleton]
  simp [revisions]

lemma latest?_append (ns id : String) : Log.latest? (log ++ [r]) ns id =
    if r.ns = ns ∧ r.id = id then some r else log.latest? ns id := by
  rw [latest?, revisions_append]
  split_ifs
  · exact List.getLast?_concat
  · rw [List.append_nil]
    rfl

lemma rev_append (ns id : String) : Log.rev (log ++ [r]) ns id =
    log.rev ns id + if r.ns = ns ∧ r.id = id then 1 else 0 := by
  rw [rev, revisions_append, List.length_append]
  split_ifs
  · rfl
  · rfl

end Log

inductive Request
  | append (ns id : String) (data metaData : Value)
  | get (ns id : String)
  | getMany (ns : String) (ids : List String)
  | query (ns : String) (idPrefix : Option String)

structure Got where
  rev : ℕ
  data : Value
  metaData : Value

structure Listed where
  id : String
  rev : ℕ

/-- The value of an answer, where all goes well. -/
def Request.Value : Request → Type
  | .append .. => ℕ
  | .get .. => Got
  | .getMany .. => List (String × Option Got)
  | .query .. => List Listed

def errorText : PortErrorCode → String
  | .refused => "REFUSED"
  | .revoked => "REVOKED"
  | .scope => "SCOPE"
  | .budget => "BUDGET"
  | .degraded => "DEGRADED"

/-- The error register that a port call may resolve to. -/
structure Failure where
  code : PortErrorCode
  detail : String
  deriving DecidableEq

/-- What `port.call` resolves to. -/
abbrev Reply (q : Request) := Except Failure q.Value

/-- What the environment does with a call: nothing, it never reaches the vault (or is refused there, as is a name that
the vault does not take), or its answer is lost. -/
inductive Fault
  | none
  | refused (failure : Failure)
  | lost (failure : Failure)
  deriving DecidableEq

/-- A throw inside the vault, as the shim returns it. -/
def threw (op message : String) : Failure := ⟨.degraded, "handler " ++ op ++ " threw: Error: " ++ message⟩

namespace Log

def got? (log : Log) (ns id : String) : Option Got :=
  (log.latest? ns id).map fun r => ⟨log.rev ns id, r.data, r.metaData⟩

def append (log : Log) (ns id : String) (data metaData : Value) : Log := log ++ [⟨ns, id, data, metaData⟩]

/-- Selects ids as `LIKE` does. -/
def selected (log : Log) (ns : String) (idPrefix : Option String) : List String :=
  (log.ids ns).filter fun id => idPrefix.all fun p => like (escapeLike p.toList ++ ['%']) id.toList

def answer (log : Log) : (q : Request) → Reply q
  | .append ns id _ _ => .ok (log.rev ns id + 1)
  | .get ns id => (log.got? ns id).elim (.error (threw "vault.get@1" (notFound ns id none))) .ok
  | .getMany ns ids =>
    if ids.eraseDups.length > getManyBound then
      .error (threw "vault.getmany@1" ("vault.getmany@1: " ++ toString ids.eraseDups.length ++
        " distinct ids exceeds the " ++ toString getManyBound ++
          " bound — page through vault.query@1 + repeated batches"))
    else .ok (ids.eraseDups.map fun id => (id, log.got? ns id))
  | .query ns idPrefix => .ok ((log.selected ns idPrefix).map fun id => ⟨id, log.rev ns id⟩)

def after (log : Log) : Request → Log
  | .append ns id data metaData => log.append ns id data metaData
  | _ => log

end Log

def serve : Fault → Log → (q : Request) → Reply q × Log
  | .none, log, q => (log.answer q, log.after q)
  | .refused failure, log, _ => (.error failure, log)
  | .lost failure, log, q => (.error failure, log.after q)

def port : Service Request Reply Log Fault := ⟨serve⟩

def Fault.executes : Fault → Bool
  | .refused _ => false
  | _ => true

def Request.isAppend : Request → Bool
  | .append .. => true
  | _ => false

lemma serve_ok {fault : Fault} {log : Log} {q : Request} {a : q.Value} (h : (port.serve fault log q).1 = .ok a) :
    fault = .none ∧ log.answer q = .ok a := by
  cases fault with
  | none => exact ⟨rfl, h⟩
  | refused f => cases h
  | lost f => cases h

lemma serve_store (fault : Fault) (log : Log) (q : Request) :
    (port.serve fault log q).2 = if fault.executes then log.after q else log := by
  cases fault <;> rfl

lemma serve_get_store (fault : Fault) (log : Log) (ns id : String) : (port.serve fault log (.get ns id)).2 = log := by
  cases fault <;> rfl

lemma after_of_not_append (log : Log) {q : Request} (h : q.isAppend = false) : log.after q = log := by
  cases q with
  | append => cases h
  | get => rfl
  | getMany => rfl
  | query => rfl

/-- The revision that a served request left behind. -/
def written {C : Type} (v : Served Request Reply Fault C) : Option Revision :=
  match v.exchange.1 with
  | .append ns id data metaData => if v.fault.executes then some ⟨ns, id, data, metaData⟩ else none
  | _ => none

lemma written_eq {C : Type} {v : Served Request Reply Fault C} {r : Revision} (h : written v = some r) :
    v.fault.executes = true ∧ v.exchange.1 = .append r.ns r.id r.data r.metaData := by
  rw [written] at h
  split at h
  · rename_i ns id data metaData hq
    split_ifs at h with hexec
    obtain rfl := Option.some.inj h
    exact ⟨hexec, hq⟩
  · cases h

lemma advance_store {R C : Type} (s : Pool Request Reply R Log Fault C) (n : ℕ) (c : C) (fault : Fault) (q : Request)
    (next : Reply q → Process Request Reply R) : (s.advance port n c fault q next).store =
      s.store ++ (written ⟨n, c, fault, ⟨q, (port.serve fault s.store q).1⟩⟩).toList := by
  have hstore : (s.advance port n c fault q next).store = if fault.executes then s.store.after q else s.store :=
    serve_store fault s.store q
  rw [hstore, written]
  cases q with
  | append ns id data metaData =>
    cases fault.executes with
    | true => rfl
    | false => exact (List.append_nil _).symm
  | get => rw [after_of_not_append _ rfl, ite_self, Option.toList_none, List.append_nil]
  | getMany => rw [after_of_not_append _ rfl, ite_self, Option.toList_none, List.append_nil]
  | query => rw [after_of_not_append _ rfl, ite_self, Option.toList_none, List.append_nil]

/-- The log is what was there with what was appended since. -/
lemma store_eq {R C : Type} {program : C → Process Request Reply R} {log : Log}
    {ok : Pool Request Reply R Log Fault C → PoolEvent Fault C → Prop} {s : Pool Request Reply R Log Fault C}
    (h : (Pool.system port program fun init => init = log).Reachable ok s) :
    s.store = log ++ s.history.filterMap written := by
  induction h with
  | start hinit =>
    obtain ⟨hstore, _, hhistory⟩ := hinit
    rw [hstore, hhistory, List.filterMap_nil, List.append_nil]
  | @next s e t _ _ hstep ih =>
    obtain ⟨c, rfl, rfl⟩ | ⟨n, fault, c, q, next, rfl, _, rfl⟩ := Pool.step_cases hstep
    · exact ih
    · rw [advance_store, Pool.advance, List.filterMap_append, ← List.append_assoc, ← ih, List.filterMap_cons,
        List.filterMap_nil]
      cases written ⟨n, c, fault, ⟨q, (port.serve fault s.store q).1⟩⟩ <;> rfl

lemma mem_serve {fault : Fault} {log : Log} {q : Request} {r : Revision} (h : r ∈ log) :
    r ∈ (port.serve fault log q).2 := by
  rw [serve_store]
  split_ifs
  · cases q with
    | append => exact List.mem_append_left _ h
    | get => exact h
    | getMany => exact h
    | query => exact h
  · exact h

lemma mem_revisions {log log' : Log} (hsub : ∀ r ∈ log, r ∈ log') {ns id : String} {r : Revision}
    (h : r ∈ log.revisions ns id) : r ∈ log'.revisions ns id := by
  obtain ⟨hmem, hkey⟩ := List.mem_filter.mp h
  exact List.mem_filter.mpr ⟨hsub r hmem, hkey⟩

lemma answer_get {log : Log} {ns id : String} {got : Got} (h : log.answer (.get ns id) = .ok got) :
    ∃ r ∈ log.revisions ns id, r.data = got.data := by
  rw [Log.answer, Log.got?] at h
  cases hlatest : log.latest? ns id with
  | none =>
    rw [hlatest] at h
    cases h
  | some r =>
    rw [hlatest] at h
    obtain rfl := Except.ok.inj h
    exact ⟨r, List.mem_of_getLast? hlatest, rfl⟩

lemma mem_ids {log : Log} {ns id : String} : id ∈ log.ids ns ↔ log.revisions ns id ≠ [] := by
  rw [Log.ids, List.mem_insertionSort, List.mem_eraseDups, List.mem_map, Log.revisions, ne_eq, List.filter_eq_nil_iff]
  simp only [List.mem_filter, decide_eq_true_eq, not_forall, not_not]
  constructor
  · rintro ⟨r, ⟨hr, hns⟩, hid⟩
    exact ⟨r, hr, hns, hid⟩
  · rintro ⟨r, hr, hns, hid⟩
    exact ⟨r, ⟨hr, hns⟩, hid⟩

/-- A prefix selects what starts with it. -/
lemma mem_selected {log : Log} {ns p s : String} (h : log.revisions ns (p ++ s) ≠ []) :
    p ++ s ∈ log.selected ns (some p) := by
  refine List.mem_filter.mpr ⟨mem_ids.mpr h, ?_⟩
  rw [Option.all_some, like_escapeLike, String.toList_append, List.map_append]
  exact List.prefix_append _ _

/-- What a get told is in the log from then on, and only a call that went through is told a value. -/
lemma served_log {R C : Type} {program : C → Process Request Reply R} {init : Log → Prop}
    {ok : Pool Request Reply R Log Fault C → PoolEvent Fault C → Prop} {s : Pool Request Reply R Log Fault C}
    (h : (Pool.system port program init).Reachable ok s) : ∀ v ∈ s.history,
      (∀ ns id got, v.exchange = ⟨.get ns id, .ok got⟩ → ∃ r ∈ s.store.revisions ns id, r.data = got.data) ∧
        ∀ q a, v.exchange = ⟨q, .ok a⟩ → v.fault = .none := by
  induction h with
  | start hinit =>
    rw [hinit.2.2]
    exact fun v hv => absurd hv List.not_mem_nil
  | @next s e t _ _ hstep ih =>
    obtain ⟨c, rfl, rfl⟩ | ⟨n, fault, c, q, next, rfl, _, rfl⟩ := Pool.step_cases hstep
    · exact ih
    · have hgrows : ∀ r ∈ s.store, r ∈ (s.advance port n c fault q next).store := fun r hr => mem_serve hr
      intro v hv
      obtain hold | hnew := List.mem_append.mp hv
      · refine ⟨fun ns id got hx => ?_, (ih v hold).2⟩
        obtain ⟨r, hr, hdata⟩ := (ih v hold).1 ns id got hx
        exact ⟨r, mem_revisions hgrows hr, hdata⟩
      · rw [List.mem_singleton.mp hnew]
        refine ⟨fun ns id got hx => ?_, fun q' a hx => ?_⟩
        · obtain ⟨rfl, hanswer⟩ := Sigma.mk.inj hx
          obtain ⟨_, hgot⟩ := serve_ok (eq_of_heq hanswer)
          obtain ⟨r, hr, hdata⟩ := answer_get hgot
          exact ⟨r, mem_revisions hgrows hr, hdata⟩
        · obtain ⟨rfl, hanswer⟩ := Sigma.mk.inj hx
          exact (serve_ok (eq_of_heq hanswer)).1

def Request.op : Request → String
  | .append .. => "vault.append@1"
  | .get .. => "vault.get@1"
  | .getMany .. => "vault.getmany@1"
  | .query .. => "vault.query@1"

/-- A handler over the port; what it throws is a text. -/
abbrev Handler := ExceptT String (Process Request Reply)

def call (q : Request) : Handler (Reply q) := ExceptT.mk (.ask q fun r => .done (.ok r))

def failed (q : Request) (f : Failure) : String := q.op ++ " " ++ errorText f.code ++ ": " ++ f.detail

/-- A port call whose failure is thrown. -/
def vaultCall (q : Request) : Handler q.Value := ExceptT.mk (.ask q fun r => .done (r.mapError (failed q)))

section Runs

variable {α β : Type}

lemma run_vaultCall (q : Request) (k : q.Value → Handler β) : (vaultCall q >>= k).run =
    .ask q fun r => match r with
      | .error f => .done (.error (failed q f))
      | .ok a => (k a).run := by
  apply congrArg (Process.ask q)
  funext r
  cases r <;> rfl

lemma run_call (q : Request) (k : Reply q → Handler β) : (call q >>= k).run = .ask q fun r => (k r).run := rfl

lemma run_lift (x : Except String α) (k : α → Handler β) : ((liftM x : Handler α) >>= k).run =
    match x with
    | .error e => .done (.error e)
    | .ok a => (k a).run := by
  cases x <;> rfl

lemma run_bind (x : Handler α) (k : α → Handler β) : (x >>= k).run =
    x.run.bind fun r => match r with
      | .error e => .done (.error e)
      | .ok a => (k a).run := by
  apply congrArg (Process.bind (ExceptT.run x))
  funext r
  cases r <;> rfl

lemma run_pure (a : α) : (pure a : Handler α).run = .done (.ok a) := rfl

lemma run_throw (e : String) : (throw e : Handler α).run = .done (.error e) := rfl

variable {asks : List ((q : Request) × Reply q) → Request → Prop}
variable {ends : List ((q : Request) × Reply q) → Except String β → Prop} {past : List ((q : Request) × Reply q)}

lemma meets_vaultCall {q : Request} {k : q.Value → Handler β} (hq : asks past q)
    (herror : ∀ f, ends (past ++ [⟨q, .error f⟩]) (.error (failed q f)))
    (hok : ∀ a, (k a).run.Meets asks ends (past ++ [⟨q, .ok a⟩])) : (vaultCall q >>= k).run.Meets asks ends past := by
  rw [run_vaultCall]
  refine ⟨hq, fun r => ?_⟩
  cases r with
  | error f => exact herror f
  | ok a => exact hok a

lemma meets_call {q : Request} {k : Reply q → Handler β} (hq : asks past q)
    (hk : ∀ r, (k r).run.Meets asks ends (past ++ [⟨q, r⟩])) : (call q >>= k).run.Meets asks ends past :=
  ⟨hq, hk⟩

lemma meets_lift {x : Except String α} {k : α → Handler β} (herror : ∀ e, x = .error e → ends past (.error e))
    (hok : ∀ a, x = .ok a → (k a).run.Meets asks ends past) : ((liftM x : Handler α) >>= k).run.Meets asks ends past := by
  rw [run_lift]
  cases x with
  | error e => exact herror e rfl
  | ok a => exact hok a rfl

lemma meets_bind {post : List ((q : Request) × Reply q) → Except String α → Prop} {x : Handler α} {k : α → Handler β}
    (hx : x.run.Meets asks post past) (herror : ∀ l e, post l (.error e) → ends l (.error e))
    (hok : ∀ l a, post l (.ok a) → (k a).run.Meets asks ends l) : (x >>= k).run.Meets asks ends past := by
  rw [run_bind]
  refine hx.bind fun l r hr => ?_
  cases r with
  | error e => exact herror l e hr
  | ok a => exact hok l a hr

end Runs

end VivimOmega.Vault

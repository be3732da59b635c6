import VivimOmega.Director.Registry
import VivimOmega.Library.Serial

/-! The fire pass of the director and its loop: no rule fires twice on a message while no two callers wait together and the
ledger answers. -/

namespace VivimOmega.Director.Tick

open Library Library.Json Contracts Vault Nlcl

section Desk

def emailNs : String := "email"

def firedPrefix : String := "fired:"

def messageMetaType : JsString := ofText "message"

def tickScanCap : ℕ := 200

def tickRuleCap : ℕ := 200

/-- The action of a rule on a message, as it goes out through the port. -/
structure Act where
  message : String
  rule : JsString
  op : JsString
  payload : Value

/-- (id → rev) -/
abbrev Memory := String → Option ℕ

/-- What the passes share: the vault, the memory, and the actions that were attempted. -/
structure Desk where
  log : Log
  memory : Memory
  acts : List Act

inductive Query
  | vault (q : Request)
  | act (a : Act)
  | memory
  | remember (id : String) (rev : ℕ)

inductive Sent
  | ok
  | failed (failure : Failure)
  | threw (text : String)

def Query.Answer : Query → Type
  | .vault q => Reply q
  | .act _ => Sent
  | .memory => Memory
  | .remember .. => Unit

/-- What becomes of the next port call: one of the vault's, or an action. -/
structure Weather where
  fault : Fault
  sent : Sent

def Desk.serve (w : Weather) (s : Desk) : (q : Query) → q.Answer × Desk
  | .vault q => ((port.serve w.fault s.log q).1, { s with log := (port.serve w.fault s.log q).2 })
  | .act a => (w.sent, { s with acts := s.acts ++ [a] })
  | .memory => (s.memory, s)
  | .remember id rev => ((), { s with memory := Function.update s.memory id (some rev) })

def desk : Service Query Query.Answer Desk Weather := ⟨Desk.serve⟩

abbrev Fire := Process Query Query.Answer

end Desk

section Messages

structure TickConfig where
  selfAddresses : List JsString

structure TriggerMessage where
  id : String
  folder : JsString
  sender : JsString
  subject : JsString
  body : JsString
  seen : Bool

def asString : Value → Option JsString
  | .string s => some s
  | _ => none

def asTriggerMessage (id : String) (v : Value) : Option TriggerMessage := do
  guard (isRecord v)
  let own ← asString (optionalProperty v "id")
  guard (own = ofText id)
  let folder ← asString (optionalProperty v "folder")
  let sender ← asString (optionalProperty v "from")
  let subject ← asString (optionalProperty v "subject")
  let body ← asString (optionalProperty v "body")
  guard (isRecord (optionalProperty v "flags"))
  let seen ← asBool (optionalProperty (optionalProperty v "flags") "seen")
  return { id, folder, sender, subject, body, seen }

def isMessageMeta (v : Value) : Bool := asString (optionalProperty v "type") = some messageMetaType

variable (U : Unicode) (cfg : TickConfig)

def isSelf (sender : JsString) : Bool := cfg.selfAddresses.contains (U.toLowerCase sender)

/-- The message of a row that the pass acts on: in the inbox, unseen, and not from self. -/
def trigger? (id : String) (data metaData : Value) : Option TriggerMessage :=
  (if isMessageMeta metaData then asTriggerMessage id data else none).filter fun m =>
    m.folder = ofText "inbox" && !m.seen && !isSelf U cfg m.sender

/-- The id of the contact that an address belongs to. -/
def contactFromAddress (address : JsString) : JsString :=
  contactPrefix ++ slug U ((U.toLowerCase address).takeWhile (· ≠ 64))

/-- A rule is about a sender when it is about anyone or about that contact. -/
def covers (sender : JsString) (rule : RuleData) : Bool :=
  match rule.event.sender with
  | none => true
  | some contact => contact.1 = contactFromAddress U sender

end Messages

section Rules

structure Loaded where
  rules : List RuleData
  total : ℕ
  error : Option String

/-- The rule of a row that was got, if it is enabled. -/
def enabledRule (row : Listed) (r : Reply (.get automationNs row.id)) : List RuleData :=
  match r with
  | .ok got => (asRule "director.tick@1" (ofText row.id) got.data).toList.filter RuleData.enabled
  | .error _ => []

/-- A row that cannot be read is skipped. -/
def getRules : List Listed → Fire (List RuleData)
  | [] => .done []
  | row :: rest => .ask (.vault (.get automationNs row.id)) fun r =>
    (getRules rest).bind fun rules => .done (enabledRule row r ++ rules)

def loadEnabledRules : Fire Loaded :=
  .ask (.vault (.query automationNs (some rulePrefix))) fun r => match r with
    | .error f => .done ⟨[], 0, some (failed (.query automationNs (some rulePrefix)) f)⟩
    | .ok rows => (getRules (rows.take tickRuleCap)).bind fun rules =>
      .done ⟨rules.insertionSort fun a b => a.id ≤ b.id, (rows.take tickRuleCap).length, none⟩

end Rules

section Firing

/-- `/consent_[0-9a-f]{16}/` at the start of a text. -/
def startsConsentId (cs : List Char) : Bool :=
  "consent_".toList.isPrefixOf cs && ((cs.drop 8).take 16).length = 16 &&
    ((cs.drop 8).take 16).all fun c => c.isDigit || ('a' ≤ c && c ≤ 'f')

def extractConsentId (detail : String) : Option String :=
  (detail.toList.tails.find? startsConsentId).map fun cs => String.ofList (cs.take 24)

structure FiredOutcome where
  ruleId : JsString
  ok : Bool
  error : Option String
  consentId : Option String

def outcomeOf (rule : RuleData) : Sent → FiredOutcome
  | .ok => ⟨rule.id, true, none, none⟩
  | .failed f => ⟨rule.id, false, some (errorText f.code ++ ": " ++ f.detail), extractConsentId f.detail⟩
  | .threw text => ⟨rule.id, false, some ("threw: " ++ text), none⟩

def explicitSubject (payload : List (JsString × Value)) (subject : JsString) : JsString :=
  match optionalProperty (.object payload) "subject" with
  | .string (u :: rest) => u :: rest
  | _ => ofText "Fwd: " ++ subject

/-- The payload of a rule without its directive, and bound to the message where the directive is set. -/
def actionOf (message : TriggerMessage) (rule : RuleData) : List (JsString × Value) :=
  let bare := rule.action.payload.filter fun x => x.1 ≠ ofText "messageFromTrigger"
  if isTrue (optionalProperty (.object rule.action.payload) "messageFromTrigger") then
    assign (assign bare (ofText "body") (.string message.body)) (ofText "subject")
      (.string (explicitSubject rule.action.payload message.subject))
  else bare

def actOf (message : TriggerMessage) (rule : RuleData) : Act :=
  ⟨message.id, rule.id, rule.action.op.1, .object (actionOf message rule)⟩

def fireRule (message : TriggerMessage) (rule : RuleData) : Fire FiredOutcome :=
  .ask (.act (actOf message rule)) fun sent => .done (outcomeOf rule sent)

def fireRules (message : TriggerMessage) : List RuleData → Fire (List FiredOutcome)
  | [] => .done []
  | rule :: rest => (fireRule message rule).bind fun outcome =>
    (fireRules message rest).bind fun outcomes => .done (outcome :: outcomes)

def FiredOutcome.value (o : FiredOutcome) : Value :=
  .object ([(ofText "ruleId", .string o.ruleId), (ofText "ok", .bool o.ok)] ++
    (o.error.map fun e => (ofText "error", jsText e)).toList ++
      (o.consentId.map fun c => (ofText "consentId", jsText c)).toList)

def firedMeta : Value := .object [(ofText "type", jsText "fired")]

def ledgerRow (message : TriggerMessage) (outcomes : List FiredOutcome) (now : ℕ) : Value :=
  .object [(ofText "messageId", jsText message.id), (ofText "from", .string message.sender),
    (ofText "firedRules", .array (outcomes.map FiredOutcome.value)), (ofText "at", .number (.ofInt now))]

end Firing

section Pass

/-- A message to fire on, and the row it was scanned at. -/
structure TriggerJob where
  row : Listed
  message : TriggerMessage

/-- The time of a pass, and that of the ledger row of each message. -/
structure Clock where
  now : ℕ
  ledgered : String → ℕ

structure TickReport where
  scanned : ℕ
  processed : ℕ
  fired : List (String × FiredOutcome)
  now : ℕ
  error : Option String

structure Progress where
  processed : ℕ
  fired : List (String × FiredOutcome)
  error : Option String

structure Batch where
  found : String → Option (Option Got)
  error : Option String

structure Sifted where
  triggers : List TriggerJob
  error : Option String

def batchError (what : String) (f : Failure) : String :=
  "vault.getmany@1 (" ++ what ++ ") " ++ errorText f.code ++ ": " ++ f.detail

/-- One batch for all ids; none is asked for when there are no ids. -/
def fetch (ns what : String) (ids : List String) : Fire Batch :=
  if ids = [] then .done ⟨fun _ => none, none⟩
  else .ask (.vault (.getMany ns ids)) fun r => match r with
    | .ok rows => .done ⟨fun id => rows.lookup id, none⟩
    | .error f => .done ⟨fun _ => none, some (batchError what f)⟩

variable (U : Unicode) (cfg : TickConfig)

/-- The candidates that are triggers; of the others those that were read are remembered. -/
def sift (found : String → Option (Option Got)) : List Listed → Fire Sifted
  | [] => .done ⟨[], none⟩
  | row :: rest =>
    match found row.id with
    | none => sift found rest
    | some none => (sift found rest).bind fun x =>
      .done ⟨x.triggers, some ("vault.getmany@1 (email bodies): row " ++ row.id ++ " missing at read time")⟩
    | some (some got) =>
      match trigger? U cfg row.id got.data got.metaData with
      | none => .ask (.remember row.id row.rev) fun _ => sift found rest
      | some message => (sift found rest).bind fun x => .done ⟨⟨row, message⟩ :: x.triggers, x.error⟩

def isLedgered (found : String → Option (Option Got)) (job : TriggerJob) : Bool :=
  match found (firedPrefix ++ job.message.id) with
  | some (some _) => true
  | _ => false

/-- The triggers without a ledger row; the others are remembered. -/
def skipLedgered (found : String → Option (Option Got)) : List TriggerJob → Fire (List TriggerJob)
  | [] => .done []
  | job :: rest =>
    if isLedgered found job then .ask (.remember job.row.id job.row.rev) fun _ => skipLedgered found rest
    else (skipLedgered found rest).bind fun jobs => .done (job :: jobs)

def appendError (message : TriggerMessage) (f : Failure) : String :=
  "vault.append@1 (ledger " ++ message.id ++ ") " ++ errorText f.code ++ ": " ++ f.detail

/-- The ledger row of a job that was attempted. -/
def ledger (clock : Clock) (loaded : Loaded) (job : TriggerJob) (outcomes : List FiredOutcome) : Fire Progress :=
  .ask (.vault (.append automationNs (firedPrefix ++ job.message.id)
    (ledgerRow job.message outcomes (clock.ledgered job.message.id)) firedMeta)) fun r => match r with
    | .ok _ => .ask (.remember job.row.id job.row.rev) fun _ =>
      .done ⟨1, outcomes.map fun o => (job.message.id, o), loaded.error⟩
    | .error f =>
      .done ⟨0, outcomes.map fun o => (job.message.id, o), loaded.error.or (some (appendError job.message f))⟩

/-- A message that no rule row could be about is left for a later pass. -/
def runJob (clock : Clock) (loaded : Loaded) (job : TriggerJob) : Fire Progress :=
  (fireRules job.message (loaded.rules.filter (covers U job.message.sender))).bind fun outcomes =>
    if outcomes = [] ∧ loaded.total = 0 then .done ⟨0, [], loaded.error⟩ else ledger clock loaded job outcomes

/-- The rules are loaded once, by the first job. -/
def runJobs (clock : Clock) : Option Loaded → List TriggerJob → Fire Progress
  | _, [] => .done ⟨0, [], none⟩
  | loaded?, job :: rest => (loaded?.elim loadEnabledRules .done).bind fun loaded =>
    (runJob U clock loaded job).bind fun p => (runJobs clock (some loaded) rest).bind fun q =>
      .done ⟨p.processed + q.processed, p.fired ++ q.fired, p.error.or q.error⟩

def candidates (memory : Memory) (rows : List Listed) : List Listed := rows.filter fun row => memory row.id ≠ some row.rev

/-- What follows the scan. -/
def pass (clock : Clock) (rows : List Listed) (memory : Memory) : Fire TickReport :=
  (fetch emailNs "email bodies" ((candidates memory rows).map Listed.id)).bind fun bodies =>
    (sift U cfg bodies.found (candidates memory rows)).bind fun sifted =>
      (fetch automationNs "fired ledger" (sifted.triggers.map fun job => firedPrefix ++ job.message.id)).bind fun ledger =>
        (skipLedgered ledger.found sifted.triggers).bind fun jobs =>
          (runJobs U clock none jobs).bind fun p =>
            .done ⟨rows.length, p.processed, p.fired, clock.now,
              ((bodies.error.or sifted.error).or ledger.error).or p.error⟩

def runTick (clock : Clock) : Fire TickReport :=
  .ask (.vault (.query emailNs none)) fun r => match r with
    | .error f => .done ⟨0, 0, [], clock.now, some (failed (.query emailNs none) f)⟩
    | .ok listed => .ask .memory fun memory => pass U cfg clock (listed.take tickScanCap) memory

end Pass

section System

/-- A pass under way, and the desk that it began at. -/
structure Pass where
  number : ℕ
  began : Desk
  rest : Fire TickReport

structure Loop where
  desk : Desk
  passes : List Pass
  inFlight : Option ℕ
  waiting : List Clock
  started : ℕ

/-- What befalls the director: a beat of the interval, a call of `director.tick@1`, the next port call of a pass, a row
that someone else writes, or a new compartment. -/
inductive Event
  | beat (clock : Clock)
  | tick (clock : Clock)
  | serve (n : ℕ) (weather : Weather)
  | write (r : Revision)
  | restart

variable (U : Unicode) (cfg : TickConfig)

def Loop.start (s : Loop) (clock : Clock) : Loop :=
  { s with passes := s.passes ++ [⟨s.started, s.desk, runTick U cfg clock⟩], inFlight := some s.started
           started := s.started + 1 }

/-- All who waited see that no pass is in flight before the first of them starts its own. -/
def Loop.release (s : Loop) : Loop :=
  s.waiting.foldl (Loop.start U cfg) { s with inFlight := none, waiting := [] }

/-- Only the pass in flight clears the way for those who wait. -/
def Loop.finish (s : Loop) (n : ℕ) (p : Pass) : Loop :=
  if s.inFlight = some p.number then { s with passes := s.passes.eraseIdx n }.release U cfg
  else { s with passes := s.passes.eraseIdx n }

def Loop.resume (s : Loop) (n : ℕ) (p : Pass) (after : Desk) (rest : Fire TickReport) : Loop :=
  if rest.isDone then { s with desk := after }.finish U cfg n p
  else { s with desk := after, passes := s.passes.set n { p with rest } }

/-- A beat is skipped while a pass is in flight; a call waits. -/
def director (vault : Log) : System Loop Event where
  init s := s = ⟨⟨vault, fun _ => none, []⟩, [], none, [], 0⟩
  step s
    | .beat clock => some (if s.inFlight = none then s.start U cfg clock else s)
    | .tick clock =>
      some (if s.inFlight = none then s.start U cfg clock else { s with waiting := s.waiting ++ [clock] })
    | .serve n weather =>
      match s.passes[n]? with
      | some p =>
        match p.rest with
        | .ask q next => some (s.resume U cfg n p (s.desk.serve weather q).2 (next (s.desk.serve weather q).1))
        | .done _ => none
      | none => none
    | .write r => some { s with desk := { s.desk with log := s.desk.log ++ [r] } }
    | .restart =>
      some { s with desk := { s.desk with memory := fun _ => none }, passes := [], inFlight := none, waiting := [] }

variable {U cfg} {vault : Log} {s t : Loop} {n : ℕ} {weather : Weather}

lemma serve_cases (h : (director U cfg vault).step s (.serve n weather) = some t) :
    ∃ p q next, s.passes[n]? = some p ∧ p.rest = .ask q next ∧
      t = s.resume U cfg n p (s.desk.serve weather q).2 (next (s.desk.serve weather q).1) := by
  simp only [director] at h
  split at h
  · rename_i p hp
    split at h
    · rename_i q next hrest
      exact ⟨p, q, next, hp, hrest, (Option.some.inj h).symm⟩
    · cases h
  · cases h

@[simp] lemma start_desk (clock : Clock) : (s.start U cfg clock).desk = s.desk := rfl

lemma foldl_start_desk (clocks : List Clock) (s : Loop) : (clocks.foldl (Loop.start U cfg) s).desk = s.desk := by
  induction clocks generalizing s with
  | nil => rfl
  | cons clock clocks ih => rw [List.foldl_cons, ih, start_desk]

lemma release_desk : (s.release U cfg).desk = s.desk := foldl_start_desk _ _

lemma resume_desk {p : Pass} {after : Desk} {rest : Fire TickReport} : (s.resume U cfg n p after rest).desk = after := by
  unfold Loop.resume Loop.finish
  split_ifs
  · exact release_desk
  · rfl
  · rfl

end System

section Facts

lemma nodup_eraseDups (ids : List String) : ids.eraseDups.Nodup := by
  induction hn : ids.length using Nat.strong_induction_on generalizing ids with
  | _ n ih =>
    cases ids with
    | nil => simp
    | cons id rest =>
      rw [List.eraseDups_cons, List.nodup_cons]
      constructor
      · simp [List.mem_eraseDups]
      · apply ih _ _ _ rfl
        have hle := List.length_filter_le (fun b => !b == id) rest
        simp only [List.length_cons] at hn
        omega

lemma length_eraseDups_le (ids : List String) : ids.eraseDups.length ≤ ids.length :=
  (List.subperm_of_subset (nodup_eraseDups ids) fun _ h => List.mem_eraseDups.mp h).length_le

lemma selected_nodup (log : Log) (ns : String) (idPrefix : Option String) : (log.selected ns idPrefix).Nodup := by
  apply List.Nodup.filter
  rw [Log.ids, (List.perm_insertionSort _ _).nodup_iff]
  exact nodup_eraseDups _

variable {U : Unicode} {cfg : TickConfig} {id : String} {data metaData : Value} {m : TriggerMessage}

lemma trigger_id (h : trigger? U cfg id data metaData = some m) : m.id = id := by
  obtain ⟨h, -⟩ := Option.filter_eq_some_iff.mp h
  split_ifs at h
  simp only [asTriggerMessage, Option.bind_eq_bind, Option.bind_eq_some_iff] at h
  obtain ⟨-, -, _, -, -, -, _, -, _, -, _, -, _, -, -, -, _, -, h⟩ := h
  exact (Option.some.inj h) ▸ rfl

/-- The job that a row gives rise to. -/
def jobAt (U : Unicode) (cfg : TickConfig) (found : String → Option (Option Got)) (row : Listed) : Option TriggerJob :=
  (found row.id).join.bind fun got => (trigger? U cfg row.id got.data got.metaData).map fun m => ⟨row, m⟩

lemma jobAt_row {found : String → Option (Option Got)} {row : Listed} {job : TriggerJob}
    (h : jobAt U cfg found row = some job) : job.row = row ∧ job.message.id = row.id := by
  obtain ⟨got, -, h⟩ := Option.bind_eq_some_iff.mp h
  obtain ⟨m, hm, rfl⟩ := Option.map_eq_some_iff.mp h
  exact ⟨rfl, trigger_id hm⟩

lemma jobs_ids (found : String → Option (Option Got)) (rows : List Listed) :
    ((rows.filterMap (jobAt U cfg found)).map fun job => job.message.id).Sublist (rows.map Listed.id) := by
  induction rows with
  | nil => simp
  | cons row rest ih =>
    cases hjob : jobAt U cfg found row with
    | none =>
      rw [List.filterMap_cons_none hjob]
      exact ih.cons _
    | some job =>
      rw [List.filterMap_cons_some hjob, List.map_cons, List.map_cons, (jobAt_row hjob).2]
      exact ih.cons_cons _

end Facts

section Passes

/-- How often the ledger names a message. -/
def Desk.fired (s : Desk) (id : String) : ℕ := s.log.rev automationNs (firedPrefix ++ id)

/-- No rule acted twice on a message, and no message got a second ledger row. -/
structure Once (vault : Log) (s : Desk) : Prop where
  acts : (s.acts.map fun a => (a.message, a.rule)).Nodup
  rows : ∀ id, s.fired id ≤ max 1 (vault.rev automationNs (firedPrefix ++ id))

/-- As a pass leaves the desk: all that was acted on is in the ledger. -/
structure Settled (vault : Log) (s : Desk) : Prop extends Once vault s where
  ledgered : ∀ a ∈ s.acts, 0 < s.fired a.message

/-- A step that neither acts nor touches the ledger. -/
structure Aside (s t : Desk) : Prop where
  acts : t.acts = s.acts
  fired : ∀ id, t.fired id = s.fired id

variable {vault : Log} {s t u : Desk}

lemma Aside.refl : Aside s s := ⟨rfl, fun _ => rfl⟩

lemma Aside.trans (h : Aside s t) (h' : Aside t u) : Aside s u :=
  ⟨h'.acts.trans h.acts, fun id => (h'.fired id).trans (h.fired id)⟩

lemma Aside.once (h : Aside s t) (hs : Once vault s) : Once vault t where
  acts := by simpa only [h.acts] using hs.acts
  rows id := by simpa only [h.fired] using hs.rows id

lemma Aside.settled (h : Aside s t) (hs : Settled vault s) : Settled vault t where
  toOnce := h.once hs.toOnce
  ledgered a ha := by
    rw [h.acts] at ha
    simpa only [h.fired] using hs.ledgered a ha

/-- The ledger batches are answered, and what is appended reaches the vault. -/
def Answers (w : Weather) : Query → Prop
  | .vault (.getMany ns _) => ns = automationNs → w.fault = .none
  | .vault (.append ..) => w.fault.executes = true
  | _ => True

abbrev Tidy (vault : Log) {R : Type} (post : R → Desk → Prop) (p : Fire R) (s : Desk) : Prop :=
  p.Safe desk Answers Aside (fun _ t => Once vault t) post s

variable {R T : Type} {post : R → Desk → Prop} {post' : T → Desk → Prop} {p : Fire R}

def Quiet : Query → Prop
  | .vault (.append ..) => False
  | .act _ => False
  | _ => True

lemma Quiet.aside {q : Query} (hq : Quiet q) (w : Weather) : Aside t (t.serve w q).2 := by
  cases q with
  | vault q =>
    have hlog : (port.serve w.fault t.log q).2 = t.log := by
      rw [serve_store]
      cases q with
      | append => exact hq.elim
      | get => exact ite_self _
      | getMany => exact ite_self _
      | query => exact ite_self _
    exact ⟨rfl, fun id => congrArg (fun log : Log => log.rev automationNs (firedPrefix ++ id)) hlog⟩
  | act a => exact hq.elim
  | memory => exact .refl
  | remember id rev => exact ⟨rfl, fun _ => rfl⟩

/-- A question that changes neither the ledger nor the actions. -/
lemma tidy_ask {q : Query} {next : q.Answer → Fire R} (hq : Quiet q) (hs : Once vault s)
    (h : ∀ w t u, Answers w q → Aside s t → Aside t u → Tidy vault post (next (t.serve w q).1) u) :
    Tidy vault post (.ask q next) s := by
  intro t ht w hw
  have hafter : Aside t (t.serve w q).2 := hq.aside w
  exact ⟨hafter.once (ht.once hs), h w t _ hw ht hafter⟩

lemma tidy_bind {f : R → Fire T} (h : Tidy vault post p s) (hf : ∀ r t, post r t → Tidy vault post' (f r) t) :
    Tidy vault post' (p.bind f) s := Process.Safe.bind h hf

lemma rev_of_got {log : Log} {ns id : String} (h : log.got? ns id = none) : log.rev ns id = 0 := by
  have hlatest := Option.map_eq_none_iff.mp h
  rw [Log.latest?, List.getLast?_eq_none_iff] at hlatest
  rw [Log.rev, hlatest]
  rfl

lemma serve_getMany {w : Weather} {log : Log} {ns : String} {ids : List String} (hw : w.fault = .none)
    (hle : ids.length ≤ getManyBound) :
    (port.serve w.fault log (.getMany ns ids)).1 = .ok (ids.eraseDups.map fun id => (id, log.got? ns id)) := by
  have hbound := length_eraseDups_le ids
  have hanswer : (port.serve w.fault log (.getMany ns ids)).1 = log.answer (.getMany ns ids) := by
    rw [hw]
    rfl
  rw [hanswer]
  exact if_neg (by omega)

/-- The batch of the ledger tells which messages it names. -/
lemma tidy_fetch (ns what : String) (ids : List String) (hs : Once vault s) :
    Tidy vault (fun b t => Aside s t ∧ (ns = automationNs → ids.length ≤ getManyBound →
      ∀ id, firedPrefix ++ id ∈ ids → (b.found (firedPrefix ++ id)).join = none → t.fired id = 0)) (fetch ns what ids) s := by
  rw [fetch]
  split_ifs with hids
  · exact ⟨.refl, fun _ _ id hid => by simp [hids] at hid⟩
  · refine tidy_ask (q := .vault (.getMany ns ids)) trivial hs fun w t u hw hst htu => ?_
    cases hr : (port.serve w.fault t.log (.getMany ns ids)).1 with
    | error f =>
      simp only [Desk.serve, hr]
      refine ⟨hst.trans htu, fun hns hle => ?_⟩
      rw [serve_getMany (hw hns) hle] at hr
      cases hr
    | ok rows =>
      simp only [Desk.serve, hr]
      refine ⟨hst.trans htu, fun hns hle id hid hnone => ?_⟩
      rw [serve_getMany (hw hns) hle] at hr
      obtain rfl := Except.ok.inj hr
      simp only [List.lookup_graph (fun id => t.log.got? ns id) (List.mem_eraseDups.mpr hid)] at hnone
      subst hns
      exact (htu.fired id).trans (rev_of_got hnone)

lemma tidy_remember {id : String} {rev : ℕ} {p : Fire R} (hs : Once vault s)
    (h : ∀ t, Aside s t → Tidy vault post p t) : Tidy vault post (.ask (.remember id rev) fun _ => p) s :=
  tidy_ask (q := .remember id rev) trivial hs fun _ _ _ _ hst htu => h _ (hst.trans htu)

lemma tidy_sift {U : Unicode} {cfg : TickConfig} (found : String → Option (Option Got)) (rows : List Listed)
    (hs : Once vault s) :
    Tidy vault (fun x t => Aside s t ∧ x.triggers = rows.filterMap (jobAt U cfg found)) (sift U cfg found rows) s := by
  induction rows generalizing s with
  | nil => exact ⟨.refl, rfl⟩
  | cons row rest ih =>
    rw [sift]
    cases hfound : found row.id with
    | none =>
      have hjob : jobAt U cfg found row = none := by simp [jobAt, hfound]
      rw [List.filterMap_cons_none hjob]
      exact ih hs
    | some got? =>
      cases got? with
      | none =>
        have hjob : jobAt U cfg found row = none := by simp [jobAt, hfound]
        rw [List.filterMap_cons_none hjob]
        exact tidy_bind (ih hs) fun x t hx => hx
      | some got =>
        dsimp only
        cases htrigger : trigger? U cfg row.id got.data got.metaData with
        | none =>
          have hjob : jobAt U cfg found row = none := by simp [jobAt, hfound, htrigger]
          rw [List.filterMap_cons_none hjob]
          apply tidy_remember hs
          intro t hst
          exact Process.Safe.mono (ih (hst.once hs)) fun x u hx => ⟨hst.trans hx.1, hx.2⟩
        | some message =>
          have hjob : jobAt U cfg found row = some ⟨row, message⟩ := by simp [jobAt, hfound, htrigger]
          rw [List.filterMap_cons_some hjob]
          exact tidy_bind (ih hs) fun x t hx => ⟨hx.1, congrArg (_ :: ·) hx.2⟩

lemma tidy_skipLedgered (found : String → Option (Option Got)) (jobs : List TriggerJob) (hs : Once vault s) :
    Tidy vault (fun x t => Aside s t ∧ x = jobs.filter fun job => !isLedgered found job) (skipLedgered found jobs) s := by
  induction jobs generalizing s with
  | nil => exact ⟨.refl, rfl⟩
  | cons job rest ih =>
    rw [skipLedgered]
    cases hledgered : isLedgered found job with
    | true =>
      rw [if_pos rfl, List.filter_cons_of_neg (by simp [hledgered])]
      apply tidy_remember hs
      intro t hst
      exact Process.Safe.mono (ih (hst.once hs)) fun x u hx => ⟨hst.trans hx.1, hx.2⟩
    | false =>
      rw [if_neg Bool.false_ne_true, List.filter_cons_of_pos (by simp [hledgered])]
      exact tidy_bind (ih hs) fun x t hx => ⟨hx.1, congrArg (job :: ·) hx.2⟩

lemma tidy_getRules (rows : List Listed) (hs : Once vault s) :
    Tidy vault (fun rules t => Aside s t ∧ (rules.map RuleData.id).Sublist (rows.map fun row => ofText row.id))
      (getRules rows) s := by
  induction rows generalizing s with
  | nil => exact ⟨.refl, .slnil⟩
  | cons row rest ih =>
    rw [getRules]
    refine tidy_ask (q := .vault (.get automationNs row.id)) trivial hs fun w t u _ hst htu => ?_
    have hsu := hst.trans htu
    refine tidy_bind (ih (hsu.once hs)) fun rules v hrules => ⟨hsu.trans hrules.1, ?_⟩
    rw [List.map_append, List.map_cons]
    cases hr : (t.serve w (.vault (.get automationNs row.id))).1 with
    | error f => exact hrules.2.cons _
    | ok got =>
      cases hrule : asRule "director.tick@1" (ofText row.id) got.data with
      | none =>
        simp only [enabledRule, hrule, Option.toList_none, List.filter_nil, List.map_nil, List.nil_append]
        exact hrules.2.cons _
      | some rule =>
        simp only [enabledRule, hrule, Option.toList_some, List.filter_singleton]
        cases rule.enabled with
        | true =>
          simp only [cond_true, List.map_singleton, (asRule_id hrule).1, List.singleton_append]
          exact hrules.2.cons_cons _
        | false => exact hrules.2.cons _

/-- The rules that a pass loads have different ids. -/
lemma tidy_load (hs : Once vault s) :
    Tidy vault (fun l t => Aside s t ∧ (l.rules.map RuleData.id).Nodup) loadEnabledRules s := by
  refine tidy_ask (q := .vault (.query automationNs (some rulePrefix))) trivial hs fun w t u _ hst htu => ?_
  have hsu := hst.trans htu
  cases hr : (port.serve w.fault t.log (.query automationNs (some rulePrefix))).1 with
  | error f =>
    simp only [Desk.serve, hr]
    exact ⟨hsu, List.nodup_nil⟩
  | ok rows =>
    simp only [Desk.serve, hr]
    obtain rfl := Except.ok.inj (serve_ok hr).2
    refine tidy_bind (tidy_getRules _ (hsu.once hs)) fun rules v hrules => ⟨hsu.trans hrules.1, ?_⟩
    rw [((List.perm_insertionSort _ rules).map RuleData.id).nodup_iff]
    apply hrules.2.nodup
    rw [← List.map_take, List.map_map]
    exact ((selected_nodup t.log automationNs (some rulePrefix)).sublist (List.take_sublist _ _)).map ofText_injective

lemma fired_append {row : Revision} (id : String) :
    Desk.fired { s with log := s.log ++ [row] } id =
      s.fired id + if row.ns = automationNs ∧ row.id = firedPrefix ++ id then 1 else 0 :=
  Log.rev_append s.log row automationNs (firedPrefix ++ id)

/-- Each rule is tried once on a message that has no ledger row yet. -/
lemma tidy_fireRules (message : TriggerMessage) (rules : List RuleData) (hs : Once vault s)
    (hrules : (rules.map RuleData.id).Nodup) (hfresh : s.fired message.id = 0)
    (hacts : ∀ a ∈ s.acts, 0 < s.fired a.message ∨ a.message = message.id ∧ a.rule ∉ rules.map RuleData.id) :
    Tidy vault (fun outcomes t => Once vault t ∧ (∀ a ∈ t.acts, 0 < t.fired a.message ∨ a.message = message.id) ∧
      (∀ id, t.fired id = s.fired id) ∧ outcomes.length = rules.length) (fireRules message rules) s := by
  induction rules generalizing s with
  | nil => exact ⟨hs, fun a ha => (hacts a ha).imp_right And.left, fun _ => rfl, rfl⟩
  | cons rule rest ih =>
    obtain ⟨hrule, hrest⟩ := List.nodup_cons.mp hrules
    simp only [fireRules, fireRule, Process.bind_ask, Process.bind_done]
    intro t hst w hw
    have ht := hst.once hs
    have hnew : (message.id, rule.id) ∉ t.acts.map fun a => (a.message, a.rule) := by
      intro hmem
      obtain ⟨a, ha, heq⟩ := List.mem_map.mp hmem
      obtain ⟨hmessage, hid⟩ := Prod.mk.inj heq
      rw [hst.acts] at ha
      obtain hpos | ⟨-, hnot⟩ := hacts a ha
      · rw [hmessage, hfresh] at hpos
        exact absurd hpos (lt_irrefl 0)
      · exact hnot (hid ▸ List.mem_cons_self)
    have hafter : Once vault { t with acts := t.acts ++ [actOf message rule] } := by
      constructor
      · simp only [List.map_append, List.map_cons, List.map_nil, List.nodup_append]
        exact ⟨ht.acts, List.nodup_singleton _, fun x hx y hy hxy => hnew (by
          obtain rfl := List.mem_singleton.mp hy
          exact hxy ▸ hx)⟩
      · exact ht.rows
    refine ⟨hafter, tidy_bind (ih hafter hrest ((hst.fired message.id).trans hfresh) ?_) fun outcomes u hu => ?_⟩
    · intro a ha
      obtain hold | hlast := List.mem_append.mp ha
      · rw [hst.acts] at hold
        refine (hacts a hold).imp (fun h => ?_) fun h => ⟨h.1, fun hmem => h.2 (List.mem_cons_of_mem _ hmem)⟩
        exact (hst.fired a.message).symm ▸ h
      · obtain rfl := List.mem_singleton.mp hlast
        exact .inr ⟨rfl, hrule⟩
    · exact ⟨hu.1, hu.2.1, fun id => (hu.2.2.1 id).trans (hst.fired id), congrArg (· + 1) hu.2.2.2⟩

lemma Settled.of_acts {message : String} (hs : Once vault s) (hacts : ∀ a ∈ s.acts, 0 < s.fired a.message ∨ a.message = message)
    (hmessage : 0 < s.fired message) : Settled vault s where
  toOnce := hs
  ledgered a ha := (hacts a ha).elim id fun h => h ▸ hmessage

/-- The ledger row of a message settles what was fired on it. -/
lemma tidy_ledger (clock : Clock) (loaded : Loaded) (job : TriggerJob) (outcomes : List FiredOutcome) (hs : Once vault s)
    (hfresh : s.fired job.message.id = 0)
    (hacts : ∀ a ∈ s.acts, 0 < s.fired a.message ∨ a.message = job.message.id) :
    Tidy vault (fun _ t => Settled vault t ∧ ∀ id, id ≠ job.message.id → t.fired id = s.fired id)
      (ledger clock loaded job outcomes) s := by
  intro t hst w hw
  have hlog : (t.serve w (.vault (.append automationNs (firedPrefix ++ job.message.id)
      (ledgerRow job.message outcomes (clock.ledgered job.message.id)) firedMeta))).2 =
        { t with log := t.log ++ [⟨automationNs, firedPrefix ++ job.message.id,
          ledgerRow job.message outcomes (clock.ledgered job.message.id), firedMeta⟩] } := by
    have hexecutes : w.fault.executes = true := hw
    simp only [Desk.serve, serve_store, hexecutes, if_true]
    rfl
  simp only [desk]
  rw [hlog]
  generalize hu : ({ t with log := t.log ++ [⟨automationNs, firedPrefix ++ job.message.id,
    ledgerRow job.message outcomes (clock.ledgered job.message.id), firedMeta⟩] } : Desk) = u
  have hfired : ∀ id, u.fired id = s.fired id + if job.message.id = id then 1 else 0 := by
    intro id
    rw [← hu, fired_append, hst.fired]
    simp [String.append_right_inj]
  have hother : ∀ id, id ≠ job.message.id → u.fired id = s.fired id := by
    intro id hid
    rw [hfired, if_neg hid.symm, Nat.add_zero]
  have hown : u.fired job.message.id = 1 := by
    rw [hfired, if_pos rfl, hfresh]
  have hacts' : u.acts = s.acts := by
    rw [← hu]
    exact hst.acts
  have honce : Once vault u := by
    constructor
    · rw [hacts']
      exact hs.acts
    · intro id
      by_cases hid : id = job.message.id
      · rw [hid, hown]
        exact Nat.le_max_left _ _
      · rw [hother id hid]
        exact hs.rows id
  have hsettled : Settled vault u := by
    have hpos : 0 < u.fired job.message.id := by
      rw [hown]
      exact Nat.one_pos
    refine Settled.of_acts honce (fun a ha => ?_) hpos
    rw [hacts'] at ha
    by_cases hid : a.message = job.message.id
    · exact .inr hid
    · exact .inl ((hother _ hid).symm ▸ (hacts a ha).resolve_right hid)
  refine ⟨honce, ?_⟩
  split
  · apply tidy_remember honce
    exact fun v huv => ⟨huv.settled hsettled, fun id hid => (huv.fired id).trans (hother id hid)⟩
  · exact ⟨hsettled, hother⟩

lemma tidy_runJob {U : Unicode} {clock : Clock} {loaded : Loaded} {job : TriggerJob} (hs : Settled vault s)
    (hrules : (loaded.rules.map RuleData.id).Nodup) (hfresh : s.fired job.message.id = 0) :
    Tidy vault (fun _ t => Settled vault t ∧ ∀ id, id ≠ job.message.id → t.fired id = s.fired id)
      (runJob U clock loaded job) s := by
  rw [runJob]
  cases hmatches : loaded.rules.filter (covers U job.message.sender) with
  | nil =>
    simp only [fireRules, Process.bind_done]
    split_ifs
    · exact ⟨hs, fun _ _ => rfl⟩
    · exact tidy_ledger _ _ _ _ hs.toOnce hfresh fun a ha => .inl (hs.ledgered a ha)
  | cons rule rest =>
    rw [← hmatches]
    refine tidy_bind (tidy_fireRules _ _ hs.toOnce ?_ hfresh fun a ha => .inl (hs.ledgered a ha)) fun outcomes t ht => ?_
    · exact hrules.sublist (List.filter_sublist.map RuleData.id)
    · obtain ⟨honce, hacts, hfired, hlength⟩ := ht
      have hsome : outcomes ≠ [] := by
        rintro rfl
        rw [hmatches] at hlength
        cases hlength
      rw [if_neg fun h => hsome h.1]
      refine Process.Safe.mono (tidy_ledger _ _ _ _ honce ((hfired _).trans hfresh) hacts) fun _ u hu => ?_
      exact ⟨hu.1, fun id hid => (hu.2 id hid).trans (hfired id)⟩

lemma tidy_runJobs {U : Unicode} {clock : Clock} (loaded? : Option Loaded) (jobs : List TriggerJob) (hs : Settled vault s)
    (hrules : ∀ l, loaded? = some l → (l.rules.map RuleData.id).Nodup)
    (hnodup : (jobs.map fun job => job.message.id).Nodup) (hfresh : ∀ job ∈ jobs, s.fired job.message.id = 0) :
    Tidy vault (fun _ t => Settled vault t) (runJobs U clock loaded? jobs) s := by
  induction jobs generalizing loaded? s with
  | nil => exact hs
  | cons job rest ih =>
    obtain ⟨hjob, hrest⟩ := List.nodup_cons.mp hnodup
    have hload : Tidy vault (fun l t => Aside s t ∧ (l.rules.map RuleData.id).Nodup)
        (loaded?.elim loadEnabledRules .done) s := by
      cases loaded? with
      | none => exact tidy_load hs.toOnce
      | some l => exact ⟨.refl, hrules l rfl⟩
    rw [runJobs]
    refine tidy_bind hload fun loaded t ht => ?_
    have hfresh' : t.fired job.message.id = 0 := (ht.1.fired _).trans (hfresh job List.mem_cons_self)
    refine tidy_bind (tidy_runJob (ht.1.settled hs) ht.2 hfresh') fun _ u hu => ?_
    refine tidy_bind (ih (some loaded) hu.1 ?_ hrest fun other hother => ?_) fun _ v hv => hv
    · rintro l ⟨⟩
      exact ht.2
    · have hne : other.message.id ≠ job.message.id := fun heq =>
        hjob (List.mem_map.mpr ⟨other, hother, heq⟩)
      rw [hu.2 _ hne, ht.1.fired]
      exact hfresh other (List.mem_cons_of_mem _ hother)

lemma tidy_pass {U : Unicode} {cfg : TickConfig} {clock : Clock} {rows : List Listed} {memory : Memory}
    (hs : Settled vault s) (hrows : (rows.map Listed.id).Nodup) (hlength : rows.length ≤ tickScanCap) :
    Tidy vault (fun _ t => Settled vault t) (pass U cfg clock rows memory) s := by
  have hsub : (candidates memory rows).Sublist rows := List.filter_sublist
  refine tidy_bind (tidy_fetch _ _ _ hs.toOnce) fun bodies t ht => ?_
  refine tidy_bind (tidy_sift _ _ (ht.1.once hs.toOnce)) fun sifted u hu => ?_
  have hids : (sifted.triggers.map fun job => job.message.id).Sublist (rows.map Listed.id) := by
    rw [hu.2]
    exact (jobs_ids _ _).trans (hsub.map Listed.id)
  have hbound : (sifted.triggers.map fun job => firedPrefix ++ job.message.id).length ≤ getManyBound := by
    have hle := hids.length_le
    simp only [List.length_map, tickScanCap, getManyBound] at hle hlength ⊢
    omega
  have hsu := ht.1.trans hu.1
  refine tidy_bind (tidy_fetch _ _ _ (hsu.once hs.toOnce)) fun batch v hv => ?_
  have hsv := hsu.trans hv.1
  refine tidy_bind (tidy_skipLedgered _ _ (hsv.once hs.toOnce)) fun jobs w hw => ?_
  refine tidy_bind (tidy_runJobs none jobs ((hsv.trans hw.1).settled hs) (by rintro l ⟨⟩) ?_ ?_) fun _ _ h => h
  · rw [hw.2]
    exact (hrows.sublist hids).sublist (List.filter_sublist.map _)
  · intro job hjob
    rw [hw.2] at hjob
    obtain ⟨hmem, hnot⟩ := List.mem_filter.mp hjob
    rw [hw.1.fired]
    refine hv.2 rfl hbound _ (List.mem_map_of_mem hmem) ?_
    cases hfound : batch.found (firedPrefix ++ job.message.id) with
    | none => rfl
    | some got? =>
      cases got? with
      | none => rfl
      | some got => simp [isLedgered, hfound] at hnot

/-- A pass that finds the desk settled leaves it settled. -/
lemma tidy_runTick {U : Unicode} {cfg : TickConfig} {clock : Clock} (hs : Settled vault s) :
    Tidy vault (fun _ t => Settled vault t) (runTick U cfg clock) s := by
  refine tidy_ask (q := .vault (.query emailNs none)) trivial hs.toOnce fun w t u _ hst htu => ?_
  have hsu := hst.trans htu
  cases hr : (port.serve w.fault t.log (.query emailNs none)).1 with
  | error f =>
    simp only [Desk.serve, hr]
    exact hsu.settled hs
  | ok listed =>
    simp only [Desk.serve, hr]
    obtain rfl := Except.ok.inj (serve_ok hr).2
    refine tidy_ask (q := .memory) trivial (hsu.once hs.toOnce) fun w v x _ huv hvx => ?_
    apply tidy_pass ((hsu.trans (huv.trans hvx)).settled hs)
    · have hids : ((t.log.selected emailNs none).map fun id => (⟨id, t.log.rev emailNs id⟩ : Listed)).map Listed.id =
          t.log.selected emailNs none := by
        rw [List.map_map]
        exact List.map_id _
      rw [List.map_take, hids]
      exact (selected_nodup t.log emailNs none).sublist (List.take_sublist _ _)
    · exact List.length_take_le _ _

end Passes

section Alone

variable {U : Unicode} {cfg : TickConfig} {vault : Log} {s t : Loop} {e : Event}

/-- At most one caller waits for a pass, a new compartment comes between passes, nobody else writes the ledger, and the
ledger answers. -/
def Alone (s : Loop) : Event → Prop
  | .beat _ => True
  | .tick _ => s.inFlight = none ∨ s.waiting = []
  | .serve n weather => ∀ p q next, s.passes[n]? = some p → p.rest = .ask q next → Answers weather q
  | .write r => r.ns = automationNs → ∀ id, r.id ≠ firedPrefix ++ id
  | .restart => s.passes = []

/-- Between passes the desk is settled; during one, the pass will settle it. -/
inductive Tended (vault : Log) (s : Loop) : Prop
  | idle (passes : s.passes = []) (inFlight : s.inFlight = none) (waiting : s.waiting = []) (settled : Settled vault s.desk)
  | busy (p : Pass) (passes : s.passes = [p]) (inFlight : s.inFlight = some p.number) (waiting : s.waiting.length ≤ 1)
    (once : Once vault s.desk) (runs : p.rest.isDone = false)
    (tidy : Tidy vault (fun _ t => Settled vault t) p.rest s.desk)

lemma tended_start (clock : Clock) (hpasses : s.passes = []) (hwaiting : s.waiting = []) (hs : Settled vault s.desk) :
    Tended vault (s.start U cfg clock) := by
  refine .busy ⟨s.started, s.desk, runTick U cfg clock⟩ ?_ rfl ?_ hs.toOnce rfl (tidy_runTick hs)
  · simp [Loop.start, hpasses]
  · simp [Loop.start, hwaiting]

lemma tended_release (hpasses : s.passes = []) (hwaiting : s.waiting.length ≤ 1) (hs : Settled vault s.desk) :
    Tended vault (s.release U cfg) := by
  rw [Loop.release]
  cases hw : s.waiting with
  | nil => exact .idle hpasses rfl rfl hs
  | cons clock rest =>
    rw [hw, List.length_cons] at hwaiting
    obtain rfl := List.eq_nil_of_length_eq_zero (Nat.le_zero.mp (Nat.le_of_succ_le_succ hwaiting))
    exact tended_start clock hpasses rfl hs

lemma tended_init (h : (director U cfg vault).init s) : Tended vault s := by
  obtain rfl := h
  refine .idle rfl rfl rfl ⟨⟨List.nodup_nil, fun id => Nat.le_max_right _ _⟩, fun a ha => absurd ha List.not_mem_nil⟩

lemma tended_serve {n : ℕ} {weather : Weather} {p : Pass} {q : Query} {next : q.Answer → Fire TickReport}
    (hs : Tended vault s) (hp : s.passes[n]? = some p) (hrest : p.rest = .ask q next) (hanswers : Answers weather q) :
    Tended vault (s.resume U cfg n p (s.desk.serve weather q).2 (next (s.desk.serve weather q).1)) := by
  cases hs with
  | idle hpasses => simp [hpasses] at hp
  | busy p' hpasses hflight hwaiting honce hruns htidy =>
    obtain ⟨rfl, rfl⟩ : n = 0 ∧ p' = p := by
      rw [hpasses] at hp
      cases n with
      | zero => exact ⟨rfl, Option.some.inj hp⟩
      | succ n => simp at hp
    rw [hrest] at htidy
    obtain ⟨hafter, hnext⟩ := htidy s.desk .refl weather hanswers
    rw [Loop.resume]
    split_ifs with hdone
    · rw [Loop.finish, if_pos hflight]
      apply tended_release
      · simp [hpasses]
      · exact hwaiting
      · cases hover : next (s.desk.serve weather q).1 with
        | done r =>
          have hend := hnext
          simp only [desk] at hend
          rw [hover] at hend
          exact hend
        | ask => simp [hover, Process.isDone] at hdone
    · exact .busy { p' with rest := next (s.desk.serve weather q).1 } (by simp [hpasses]) hflight hwaiting hafter
        (by simpa using hdone) hnext

lemma tended_step (hs : Tended vault s) (halone : Alone s e) (hstep : (director U cfg vault).step s e = some t) :
    Tended vault t := by
  cases e with
  | beat clock =>
    obtain rfl := Option.some.inj hstep
    cases hs with
    | idle hpasses hflight hwaiting hsettled =>
      rw [if_pos hflight]
      exact tended_start clock hpasses hwaiting hsettled
    | busy p hpasses hflight hwaiting honce hruns htidy =>
      rw [if_neg (by simp [hflight])]
      exact .busy p hpasses hflight hwaiting honce hruns htidy
  | tick clock =>
    obtain rfl := Option.some.inj hstep
    cases hs with
    | idle hpasses hflight hwaiting hsettled =>
      rw [if_pos hflight]
      exact tended_start clock hpasses hwaiting hsettled
    | busy p hpasses hflight hwaiting honce hruns htidy =>
      have hnone := halone.resolve_left (by simp [hflight])
      rw [if_neg (by simp [hflight])]
      exact .busy p hpasses hflight (by simp [hnone]) honce hruns htidy
  | serve n weather =>
    obtain ⟨p, q, next, hp, hrest, rfl⟩ := serve_cases hstep
    exact tended_serve hs hp hrest (halone p q next hp hrest)
  | write r =>
    obtain rfl := Option.some.inj hstep
    have haside : Aside s.desk { s.desk with log := s.desk.log ++ [r] } := by
      refine ⟨rfl, fun id => ?_⟩
      rw [fired_append, if_neg fun h => halone h.1 id h.2, Nat.add_zero]
    cases hs with
    | idle hpasses hflight hwaiting hsettled => exact .idle hpasses hflight hwaiting (haside.settled hsettled)
    | busy p hpasses hflight hwaiting honce hruns htidy =>
      exact .busy p hpasses hflight hwaiting (haside.once honce) hruns
        (Process.Safe.later (fun _ _ _ => Aside.trans) htidy hruns haside)
  | restart =>
    obtain rfl := Option.some.inj hstep
    cases hs with
    | idle hpasses hflight hwaiting hsettled => exact .idle rfl rfl rfl ⟨⟨hsettled.acts, hsettled.rows⟩, hsettled.ledgered⟩
    | busy p hpasses => exact absurd (hpasses.symm.trans halone) (by simp)

/-- What the loop never does: two passes at once, a rule twice on a message, a second ledger row; and between passes the
ledger names every message that was acted on. -/
structure FiresOnce (vault : Log) (s : Loop) : Prop where
  single : s.passes.length ≤ 1
  acts : (s.desk.acts.map fun a => (a.message, a.rule)).Nodup
  rows : ∀ id, s.desk.log.rev automationNs (firedPrefix ++ id) ≤ max 1 (vault.rev automationNs (firedPrefix ++ id))
  ledgered : s.passes = [] → ∀ a ∈ s.desk.acts, 0 < s.desk.log.rev automationNs (firedPrefix ++ a.message)

theorem fires_once (h : (director U cfg vault).Reachable Alone s) : FiresOnce vault s := by
  have htended : Tended vault s :=
    h.invariant (P := Tended vault) (fun _ => tended_init) fun _ _ _ _ hs halone hstep => tended_step hs halone hstep
  cases htended with
  | idle hpasses _ _ hsettled => exact ⟨by simp [hpasses], hsettled.acts, hsettled.rows, fun _ => hsettled.ledgered⟩
  | busy p hpasses _ _ honce =>
    exact ⟨by simp [hpasses], honce.acts, honce.rows, fun hnone => by simp [hnone] at hpasses⟩

section Forwarded

def alonely (s : Loop) : Event → Bool
  | .beat _ => true
  | .tick _ => s.inFlight.isNone || s.waiting.isEmpty
  | .serve _ weather => weather.fault = .none
  | .write _ => false
  | .restart => s.passes.isEmpty

lemma answers_of_none {w : Weather} (hw : w.fault = .none) (q : Query) : Answers w q := by
  cases q with
  | vault q =>
    cases q with
    | append => exact congrArg Fault.executes hw
    | get => trivial
    | getMany => exact fun _ => hw
    | query => trivial
  | act a => trivial
  | memory => trivial
  | remember id rev => trivial

lemma alone_of_alonely (h : alonely s e = true) : Alone s e := by
  cases e with
  | beat clock => trivial
  | tick clock => simpa [alonely, Alone] using h
  | serve n weather => exact fun _ q _ _ _ => answers_of_none (of_decide_eq_true h) q
  | write r => cases h
  | restart => exact List.isEmpty_iff.mp h

def noon : Clock := ⟨0, fun _ => 0⟩

/-- A message in the inbox, and a rule that forwards whatever comes. -/
def forwarding : Log :=
  [⟨emailNs, "m1", .object [(ofText "id", jsText "m1"), (ofText "folder", jsText "inbox"), (ofText "from", jsText "ada@x.org"),
      (ofText "subject", jsText "hi"), (ofText "body", jsText "hello"),
      (ofText "flags", .object [(ofText "seen", .bool false)])], .object [(ofText "type", .string messageMetaType)]⟩,
    ⟨automationNs, "rule:any-forward", .object [(ofText "id", jsText "rule:any-forward"),
      (ofText "when", .object [(ofText "event", .string triggerEvent), (ofText "from", .null)]),
      (ofText "then", .object [(ofText "op", .string actionOp), (ofText "payload", .object [(ofText "to", jsText "bob@x.org")])]),
      (ofText "enabled", .bool true), (ofText "summary", jsText "forward"), (ofText "createdAt", .number (.ofInt 0))], ruleMeta⟩]

/-- A pass with a caller waiting behind it, the caller's own pass, and another pass after a restart. -/
def forwarded : List Event :=
  [.beat noon, .tick noon] ++ List.replicate 11 (.serve 0 ⟨.none, .ok⟩) ++ [.restart, .beat noon] ++
    List.replicate 5 (.serve 0 ⟨.none, .ok⟩)

theorem fires_once_forwarded : ∃ s, (director ascii ⟨[]⟩ forwarding).Reachable Alone s ∧ s.desk.acts.length = 1 ∧
    s.passes.length = 0 ∧ FiresOnce forwarding s := by
  have hrun : ((director ascii ⟨[]⟩ forwarding).exec (fun s e => alonely s e = true)
      ⟨⟨forwarding, fun _ => none, []⟩, [], none, [], 0⟩ forwarded).map (fun s =>
        decide (s.desk.acts.length = 1 ∧ s.passes.length = 0)) = some true := by
    decide +kernel
  obtain ⟨s, hs, hf⟩ := System.exec_spec rfl hrun
  obtain ⟨hacts, hpasses⟩ := of_decide_eq_true hf
  have hreach := hs.mono fun _ _ => alone_of_alonely
  exact ⟨s, hreach, hacts, hpasses, fires_once hreach⟩

end Forwarded

end Alone

end VivimOmega.Director.Tick

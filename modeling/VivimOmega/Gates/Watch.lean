import VivimOmega.Library.Digits
import VivimOmega.Library.Influence
import VivimOmega.Library.Json.Order
import VivimOmega.Library.Json.Template
import VivimOmega.Nlcl.Text

/-! The watch substrate: who registers, arms, pauses, demotes and fires a watch. -/

namespace VivimOmega.Gates

open Library Library.Json

section Hash

def imul (a b : UInt32) : UInt32 := a * b

def hashMix (h : UInt32 × UInt32) (ch : UInt16) : UInt32 × UInt32 :=
  (imul (h.1 ^^^ ch.toUInt32) 2654435761, imul (h.2 ^^^ ch.toUInt32) 1597334677)

def hexDigit (d : ℕ) : UInt16 := UInt16.ofNat (if d < 10 then 0x30 + d else 0x57 + d)

/-- cyrb53 with the seed 0, in hexadecimal. -/
def hash53 (str : JsString) : JsString :=
  let (h1, h2) := str.foldl hashMix (0xdeadbeef, 0x41c6ce57)
  let h1 := imul (h1 ^^^ h1 >>> 16) 2246822507 ^^^ imul (h2 ^^^ h2 >>> 13) 3266489909
  let h2 := imul (h2 ^^^ h2 >>> 16) 2246822507 ^^^ imul (h1 ^^^ h1 >>> 13) 3266489909
  (digitsOf 16 (4294967296 * (2097151 &&& h2).toNat + h1.toNat)).map hexDigit

end Hash

section Rows

/-- What a gate answers instead of a value. -/
structure Refusal where
  code : String
  sentence : String

inductive WatchSource
  | vault | time | device | fs | stream
  deriving DecidableEq

def WatchSource.text : WatchSource → String
  | .vault => "vault"
  | .time => "time"
  | .device => "device"
  | .fs => "fs"
  | .stream => "stream"

inductive WatchState
  | armed | paused | demoted
  deriving DecidableEq

inductive Dedup
  | none
  | window (windowMs : Number)
  | once
  deriving DecidableEq

structure Badge where
  tier : JsString
  generality : JsString
  deriving DecidableEq

structure WatchRow where
  id : JsString
  source : WatchSource
  grants : List JsString
  onFire : Value
  dedup : Dedup
  retention : JsString
  badge : Badge
  state : WatchState

structure WatchEventRow where
  watchRef : JsString
  firedAt : Number
  evidenceRef : JsString
  canonicalIntent : Value
  idempotencyKey : JsString
  badge : Badge

end Rows

section Registration

def isIntentUnit (u : UInt16) : Bool :=
  (97 ≤ u && u ≤ 122) || (48 ≤ u && u ≤ 57) || u = 95 || u = 46 || u = 45

def colon : UInt16 := 58

/-- `INTENT_RE` -/
def isIntent (intent : JsString) : Bool :=
  match intent.splitOn colon with
  | [scheme, subject, verb] => decide (scheme = ofText "cap" ∨ scheme = ofText "intent") && decide (subject ≠ []) &&
      subject.all isIntentUnit && decide (verb ≠ []) && verb.all isIntentUnit
  | _ => false

def isCanonicalIntent (onFire : Value) : Bool :=
  match onFire with
  | .object _ =>
    match optionalProperty onFire "intent" with
    | .string intent => isIntent intent
    | _ => false
  | _ => false

structure RegisterCtx where
  isSubstrate : Bool
  grantedSources : List WatchSource

def noRetention : Refusal := ⟨"WATCH_NO_RETENTION", "I can't create this watch, because it has no rule for when its events are forgotten. Give it a retention rule and I will."⟩

def registerWatch (row : WatchRow) (ctx : RegisterCtx) : Except Refusal WatchRow :=
  if Nlcl.trim row.retention = [] then throw noRetention
  else if row.source ∉ ctx.grantedSources then
    throw ⟨"WATCH_UNGRANTED_SOURCE", "This watch needs to observe `" ++ row.source.text ++ "`, which it isn't granted. Grant the capability or I won't arm it."⟩
  else if !isCanonicalIntent row.onFire then
    throw ⟨"WATCH_ONFIRE_NOT_INTENT", "A watch can only fire a canonical intent for the law to judge — it can't act directly. Rephrase the action as an intent."⟩
  else if !ctx.isSubstrate then
    throw ⟨"WATCH_NOT_SOLE_WRITER", "Only the watch substrate writes watch rows. Your write was refused."⟩
  else if row.badge.tier = [] ∨ row.badge.generality = [] then throw noRetention
  else return { row with state := .armed }

end Registration

section Toggles

def notOwner : Refusal := ⟨"WATCH_NOT_OWNER", "Only the watch owner arms or pauses this watch. Your toggle was refused."⟩

def armWatch (row : WatchRow) (owner caller : JsString) : Except Refusal WatchRow :=
  if caller ≠ owner then throw notOwner
  else if row.state = .demoted then throw notOwner
  else return { row with state := .armed }

def pauseWatch (row : WatchRow) (owner caller : JsString) : Except Refusal WatchRow :=
  if caller ≠ owner then throw notOwner else return { row with state := .paused }

def demotedTier : JsString := ofText "demoted"

def demoteWatch (row : WatchRow) : WatchRow × JsString :=
  ({ row with state := .demoted, badge := ⟨demotedTier, row.badge.generality⟩ },
    ofText "watch.demote " ++ row.id ++ ofText ": state=demoted, badge falls loudly (was " ++ row.badge.tier ++ ofText ")")

def revokeGrants (row : WatchRow) : WatchRow := { row with grants := [], state := .paused }

end Toggles

section Fires

def bar : UInt16 := 124

def idempotencyKey (watchRef : JsString) (firedAt windowMs : Number) : JsString :=
  hash53 (watchRef ++ bar :: numberUnits (floorQuotient firedAt windowMs))

structure FireCtx where
  isSubstrate : Bool
  nowMs : Number
  evidenceRef : JsString

/-- The window of a watch, which a watch without one does not use. -/
def windowOf : Dedup → Number
  | .once => .ofInt (2 ^ 62)
  | .window windowMs => windowMs
  | .none => .ofInt 60000

def fireKey (row : WatchRow) (nowMs : Number) (evidenceRef : JsString) : JsString :=
  if row.dedup = .none then hash53 (row.id ++ bar :: numberUnits nowMs ++ bar :: evidenceRef)
  else idempotencyKey row.id nowMs (windowOf row.dedup)

def fireWatch (row : WatchRow) (ctx : FireCtx) : Except Refusal WatchEventRow :=
  if !ctx.isSubstrate then
    throw ⟨"WATCH_FIRE_NOT_GRANTABLE", "`watch.fire` can't be granted to a plugin. It mints events; it doesn't delegate."⟩
  else if row.state ≠ .armed then
    throw ⟨"WATCH_PAUSED", "This watch is not armed, so it fires nothing. Arm it and I will."⟩
  else return ⟨row.id, ctx.nowMs, ctx.evidenceRef, row.onFire, fireKey row ctx.nowMs ctx.evidenceRef, row.badge⟩

end Fires

section Lifecycle

inductive WatchCall
  | register (row : WatchRow) (ctx : RegisterCtx)
  | arm (caller : JsString)
  | pause (caller : JsString)
  | demote
  | revoke
  | fire (ctx : FireCtx)

variable (owner : JsString) {row : WatchRow} {call : WatchCall} {calls : List WatchCall}

/-- The row after a call; a refused call leaves it. -/
def watchStep (row : WatchRow) : WatchCall → WatchRow
  | .register next ctx => (registerWatch next ctx).toOption.getD row
  | .arm caller => (armWatch row owner caller).toOption.getD row
  | .pause caller => (pauseWatch row owner caller).toOption.getD row
  | .demote => (demoteWatch row).1
  | .revoke => revokeGrants row
  | .fire _ => row

def watchAnswer (row : WatchRow) : WatchCall → Option WatchEventRow
  | .fire ctx => (fireWatch row ctx).toOption
  | _ => none

/-- A watch whose calls come one after another, and the events it mints. -/
def watch : Reactor WatchRow WatchCall WatchEventRow := ⟨watchStep owner, watchAnswer⟩

/-- A registration that is carried out, of a row whose source is granted. -/
def Registers : WatchCall → Prop
  | .register row ctx => (∃ next, registerWatch row ctx = .ok next) ∧ row.source ∈ ctx.grantedSources
  | _ => False

/-- The calls that take a demoted watch out of its state. -/
def Reopens (call : WatchCall) : Prop := call = .pause owner ∨ call = .revoke ∨ Registers call

lemma registers_of_ok {row next : WatchRow} {ctx : RegisterCtx} (h : registerWatch row ctx = .ok next) :
    Registers (.register row ctx) ∧ next = { row with state := .armed } := by
  refine ⟨⟨⟨next, h⟩, ?_⟩, ?_⟩
  · by_contra hsource
    unfold registerWatch at h
    rw [if_pos hsource] at h
    split_ifs at h
  · unfold registerWatch at h
    split_ifs at h
    cases h
    rfl

lemma fire_armed {ctx : FireCtx} {event : WatchEventRow} (h : fireWatch row ctx = .ok event) :
    row.state = .armed ∧ event.badge = row.badge := by
  unfold fireWatch at h
  split_ifs at h with hsubstrate hstate
  cases h
  exact ⟨not_not.mp hstate, rfl⟩

/-- What a call does to the state of a watch. -/
lemma watchStep_cases (row : WatchRow) (call : WatchCall) :
    watchStep owner row call = row ∨ call = .demote ∨ call = .revoke ∧ (watchStep owner row call).state = .paused ∨
    call = .pause owner ∧ (watchStep owner row call).state = .paused ∨
    (call = .arm owner ∧ row.state ≠ .demoted) ∧ watchStep owner row call = { row with state := .armed } ∨
    Registers call ∧ ∃ next ctx, call = .register next ctx ∧ watchStep owner row call = { next with state := .armed } := by
  cases call with
  | demote => simp
  | revoke => simp [watchStep, revokeGrants]
  | fire ctx => exact Or.inl rfl
  | arm caller =>
    by_cases howner : caller = owner
    · subst howner
      by_cases hdemoted : row.state = .demoted
      · left
        simp [watchStep, armWatch, hdemoted, throw, throwThe, MonadExceptOf.throw, Except.toOption]
      · simp [watchStep, armWatch, hdemoted, pure, Except.pure, Except.toOption]
    · left
      simp [watchStep, armWatch, howner, throw, throwThe, MonadExceptOf.throw, Except.toOption]
  | pause caller =>
    by_cases howner : caller = owner
    · subst howner
      simp [watchStep, pauseWatch, pure, Except.pure, Except.toOption]
    · left
      simp [watchStep, pauseWatch, howner, throw, throwThe, MonadExceptOf.throw, Except.toOption]
  | register next ctx =>
    cases hregister : registerWatch next ctx with
    | error refusal =>
      left
      rw [watchStep, hregister]
      rfl
    | ok armed =>
      obtain ⟨hregisters, rfl⟩ := registers_of_ok hregister
      simp only [watchStep, hregister]
      exact Or.inr (Or.inr (Or.inr (Or.inr (Or.inr ⟨hregisters, next, ctx, rfl, rfl⟩))))

/-- A badge falls only with the watch, and rises with none of the calls. -/
def Fallen (row : WatchRow) : Prop := row.badge.tier = demotedTier → row.state = .demoted

/-- No call takes a demoted watch out of its state, and none registers a demoted badge. -/
def KeepsDemoted (row : WatchRow) (call : WatchCall) : Prop :=
  (row.state = .demoted → ¬ Reopens owner call) ∧ ∀ next ctx, call = .register next ctx → next.badge.tier ≠ demotedTier

lemma demoted_step (h : row.state = .demoted) (hcall : ¬ Reopens owner call) :
    (watchStep owner row call).state = .demoted := by
  obtain hsame | rfl | ⟨hrevoke, -⟩ | ⟨hpause, -⟩ | ⟨⟨-, hstate⟩, -⟩ | ⟨hregisters, -⟩ := watchStep_cases owner row call
  · rw [hsame, h]
  · rfl
  · exact absurd (Or.inr (Or.inl hrevoke)) hcall
  · exact absurd (Or.inl hpause) hcall
  · exact absurd h hstate
  · exact absurd (Or.inr (Or.inr hregisters)) hcall

lemma unarmed_step (h : row.state ≠ .armed) (harm : call ≠ .arm owner) (hregister : ¬ Registers call) :
    (watchStep owner row call).state ≠ .armed := by
  obtain hsame | rfl | ⟨-, hpaused⟩ | ⟨-, hpaused⟩ | ⟨⟨hcall, -⟩, -⟩ | ⟨hregisters, -⟩ := watchStep_cases owner row call
  · rwa [hsame]
  · simp [watchStep, demoteWatch]
  · simp [hpaused]
  · simp [hpaused]
  · exact absurd hcall harm
  · exact absurd hregisters hregister

lemma fallen_step (h : Fallen row) (hkeep : KeepsDemoted owner row call) : Fallen (watchStep owner row call) := by
  intro htier
  obtain hsame | rfl | ⟨rfl, -⟩ | ⟨rfl, hpaused⟩ | ⟨⟨-, hstate⟩, harmed⟩ | ⟨-, next, ctx, hregister, harmed⟩ :=
    watchStep_cases owner row call
  · rw [hsame] at htier ⊢
    exact h htier
  · rfl
  · exact absurd (Or.inr (Or.inl rfl)) (hkeep.1 (h htier))
  · have hbadge : (watchStep owner row (.pause owner)).badge = row.badge := by
      simp [watchStep, pauseWatch, pure, Except.pure, Except.toOption]
    rw [hbadge] at htier
    exact absurd (Or.inl rfl) (hkeep.1 (h htier))
  · rw [harmed] at htier
    exact absurd (h htier) hstate
  · rw [harmed] at htier
    exact absurd htier (hkeep.2 next ctx hregister)

lemma answer_armed {event : WatchEventRow} (h : watchAnswer row call = some event) :
    row.state = .armed ∧ event.badge = row.badge := by
  cases call with
  | fire ctx =>
    cases hfire : fireWatch row ctx with
    | error refusal =>
      rw [watchAnswer, hfire] at h
      cases h
    | ok minted =>
      rw [watchAnswer, hfire] at h
      cases h
      exact fire_armed hfire
  | _ => cases h

lemma answer_unarmed (h : row.state ≠ .armed) : watchAnswer row call = none := by
  cases hanswer : watchAnswer row call with
  | none => rfl
  | some event => exact absurd (answer_armed hanswer).1 h

/-- A demoted watch mints nothing until it is paused by its owner, revoked or registered. -/
lemma demoted_silent (h : row.state = .demoted) (hcalls : ∀ call ∈ calls, ¬ Reopens owner call) :
    (watch owner).answers row calls = [] := by
  induction calls generalizing row with
  | nil => rfl
  | cons call calls ih =>
    obtain ⟨hcall, hrest⟩ := List.forall_mem_cons.mp hcalls
    have hanswer : watchAnswer row call = none := answer_unarmed (by simp [h])
    rw [Reactor.answers]
    change (watchAnswer row call).toList ++ (watch owner).answers (watchStep owner row call) calls = []
    rw [hanswer, ih (demoted_step owner h hcall) hrest]
    rfl

/-- A watch that is not armed mints nothing until its owner arms it or it is registered. -/
lemma unarmed_silent (h : row.state ≠ .armed) (hcalls : ∀ call ∈ calls, call ≠ .arm owner ∧ ¬ Registers call) :
    (watch owner).answers row calls = [] := by
  induction calls generalizing row with
  | nil => rfl
  | cons call calls ih =>
    obtain ⟨⟨harm, hregister⟩, hrest⟩ := List.forall_mem_cons.mp hcalls
    rw [Reactor.answers]
    change (watchAnswer row call).toList ++ (watch owner).answers (watchStep owner row call) calls = []
    rw [answer_unarmed h, ih (unarmed_step owner h harm hregister) hrest]
    rfl

lemma badge_standing (h : Fallen row) (hkeep : ∀ x ∈ (watch owner).visited row calls, KeepsDemoted owner x.1 x.2) :
    ∀ event ∈ (watch owner).answers row calls, event.badge.tier ≠ demotedTier := by
  induction calls generalizing row with
  | nil => simp [Reactor.answers]
  | cons call calls ih =>
    rw [Reactor.visited, List.forall_mem_cons] at hkeep
    rw [Reactor.answers, List.forall_mem_append]
    refine ⟨fun event hevent htier => ?_, ih (fallen_step owner h hkeep.1) hkeep.2⟩
    obtain ⟨harmed, hbadge⟩ := answer_armed (Option.mem_toList.mp hevent)
    rw [hbadge] at htier
    have hdemoted := h htier
    rw [harmed] at hdemoted
    cases hdemoted

/-- What moves a watch between its states, and what it mints after a demotion or a revocation. -/
theorem watch_lifecycle (row : WatchRow) :
    (∀ ctx event, fireWatch row ctx = .ok event → row.state = .armed) ∧
    (∀ call, row.state = .armed → (watchStep owner row call).state = .paused → call = .pause owner ∨ call = .revoke) ∧
    (∀ call, row.state = .paused → (watchStep owner row call).state = .armed → call = .arm owner ∨ Registers call) ∧
    (∀ calls, (∀ call ∈ calls, ¬ Reopens owner call) → (watch owner).answers (demoteWatch row).1 calls = []) ∧
    (∀ calls, (∀ call ∈ calls, call ≠ .arm owner ∧ ¬ Registers call) →
      (watch owner).answers (revokeGrants row) calls = []) ∧
    ∀ calls, Fallen row → (∀ x ∈ (watch owner).visited row calls, KeepsDemoted owner x.1 x.2) →
      ∀ event ∈ (watch owner).answers row calls, event.badge.tier ≠ demotedTier := by
  refine ⟨fun ctx event h => (fire_armed h).1, fun call harmed hpaused => ?_, fun call hpaused harmed => ?_,
    fun calls => demoted_silent owner rfl, fun calls => unarmed_silent owner ?_, fun calls => badge_standing owner⟩
  · obtain hsame | rfl | ⟨hrevoke, -⟩ | ⟨hpause, -⟩ | ⟨-, hnext⟩ | ⟨-, next, ctx, -, hnext⟩ := watchStep_cases owner row call
    · rw [hsame, harmed] at hpaused
      cases hpaused
    · cases hpaused
    · exact Or.inr hrevoke
    · exact Or.inl hpause
    · rw [hnext] at hpaused
      cases hpaused
    · rw [hnext] at hpaused
      cases hpaused
  · obtain hsame | rfl | ⟨-, hstill⟩ | ⟨-, hstill⟩ | ⟨⟨harm, -⟩, -⟩ | ⟨hregisters, -⟩ := watchStep_cases owner row call
    · rw [hsame, hpaused] at harmed
      cases harmed
    · cases harmed
    · rw [hstill] at harmed
      cases harmed
    · rw [hstill] at harmed
      cases harmed
    · exact Or.inl harm
    · exact Or.inr hregisters
  · simp [revokeGrants]

def timeWatch : WatchRow where
  id := ofText "w-time-60s"
  source := .time
  grants := [ofText "cap:time:observe"]
  onFire := .object [(ofText "intent", .string (ofText "cap:vault:query"))]
  dedup := .window (.ofInt 60000)
  retention := ofText "ns-watch-90d"
  badge := ⟨ofText "first-party", ofText "speculative"⟩
  state := .armed

def aliceOwner : JsString := ofText "alice"

def fireOnce : WatchCall := .fire ⟨true, .zero, ofText "time:0"⟩

/-- A demoted watch fires after a pause and an arming, a revoked one after an arming, and anyone's revocation pauses. -/
theorem watch_fires_again :
    (¬ ∀ calls, (watch aliceOwner).answers (demoteWatch timeWatch).1 calls = []) ∧
    (¬ ∀ calls, (∀ call ∈ calls, ¬ Registers call) → (watch aliceOwner).answers (revokeGrants timeWatch) calls = []) ∧
    ¬ ∀ call, timeWatch.state = .armed → (watchStep aliceOwner timeWatch call).state = .paused →
      call = .pause aliceOwner := by
  refine ⟨fun h => ?_, fun h => ?_, fun h => ?_⟩
  · have hlength := congrArg List.length (h [.pause aliceOwner, .arm aliceOwner, fireOnce])
    exact absurd hlength (by decide)
  · have hlength := congrArg List.length (h [.arm aliceOwner, fireOnce] (by simp [Registers, fireOnce]))
    exact absurd hlength (by decide)
  · have hcall := h .revoke rfl rfl
    cases hcall

end Lifecycle

end VivimOmega.Gates

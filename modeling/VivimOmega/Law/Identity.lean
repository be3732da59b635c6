import VivimOmega.Law.Policy
import VivimOmega.Library.Transition

/-! The identity rows of the principals, which law reads and appends over two port calls. -/

namespace VivimOmega.Law

open Library Library.Json

section Records

inductive PrincipalState
  | active | retired
  deriving DecidableEq

structure PrincipalRecord where
  principal : JsString
  kind : JsString
  registeredAt : Number
  state : PrincipalState
  retiredAt : Option Number
  generation : Number

def isControl (u : UInt16) : Bool := u ≤ 0x1F || u = 0x7F

def requirePrincipal (p : JsString) : Except String Unit := do
  require (p ≠ []) "principal: must be a non-empty string"
  require (p.length ≤ 200) ("principal: '" ++ toText (p.take 24) ++ "…' exceeds 200 chars")
  require (!p.any isControl) "principal: control characters refused"

def principalKind (p : JsString) : JsString :=
  if (ofText "agent:").isPrefixOf p then ofText "agent"
  else if (ofText "user:").isPrefixOf p then ofText "user"
  else if p = ofText "root" || (ofText "µhost").isPrefixOf p then ofText "host"
  else ofText "composition"

def oneNumber : Number := .finite false oneDigit

def newRecord (now : Number) (p : JsString) : Except String PrincipalRecord := do
  requirePrincipal p
  return ⟨p, principalKind p, now, .active, none, oneNumber⟩

/-- The successor of a record, where `next` is its generation and one. -/
def retireRecord (now next : Number) (rec : PrincipalRecord) : PrincipalRecord :=
  { rec with state := .retired, retiredAt := some now, generation := next }

def stateText : PrincipalState → JsString
  | .active => ofText "active"
  | .retired => ofText "retired"

def numberOf : Value → Option Number
  | .number n => some n
  | _ => none

def stateOf (v : Value) : Option PrincipalState :=
  if isText v "active" then some .active
  else if isText v "retired" then some .retired
  else none

def nameOf : Value → Option JsString
  | .string [] => none
  | .string s => some s
  | _ => none

/-- A row as a record, and nothing where it is malformed. -/
def fromRecord (data : Value) : Option PrincipalRecord := do
  let principal ← nameOf (optionalProperty data "principal")
  let state ← stateOf (optionalProperty data "state")
  let registeredAt ← numberOf (optionalProperty data "registeredAt")
  let generation ← numberOf (optionalProperty data "generation")
  let kind := match optionalProperty data "kind" with
    | .string s => s
    | _ => ofText "unknown"
  return ⟨principal, kind, registeredAt, state, numberOf (optionalProperty data "retiredAt"), generation⟩

/-- The row that is appended for a record. -/
def rowOf (rec : PrincipalRecord) : Value :=
  .object ([(ofText "principal", .string rec.principal), (ofText "kind", .string rec.kind),
    (ofText "registeredAt", .number rec.registeredAt), (ofText "state", .string (stateText rec.state)),
    (ofText "generation", .number rec.generation)] ++
      (rec.retiredAt.map fun n => (ofText "retiredAt", .number n)).toList)

lemma fromRecord_rowOf {rec : PrincipalRecord} (h : rec.principal ≠ []) :
    fromRecord (rowOf rec) = some rec := by
  obtain ⟨principal, kind, registeredAt, state, retiredAt, generation⟩ := rec
  cases principal with
  | nil => exact absurd rfl h
  | cons u rest => cases state <;> cases retiredAt <;> rfl

end Records

section Operations

inductive Operation
  | register | retire | ensure
  deriving DecidableEq

/-- `null` for a record that is absent, malformed or could not be read. -/
def readPrincipalRecord (principal : JsString) (reply : Except String Value) : Option PrincipalRecord :=
  match requirePrincipal principal, reply with
  | .ok _, .ok data => fromRecord data
  | _, _ => none

/-- What an operation appends once it has read the record, if it goes on at all. -/
def nextRecord (operation : Operation) (principal : JsString) (now next : Number) :
    Option PrincipalRecord → Except String (Option PrincipalRecord)
  | none =>
    match operation with
    | .retire => throw ("law.principal.retire: PRINCIPAL_UNKNOWN — '" ++ toText principal ++
        "' has no identity row")
    | _ => (newRecord now principal).map some
  | some existing =>
    match operation, existing.state with
    | .register, .retired => throw ("law.principal.register: PRINCIPAL_REUSED — '" ++ toText principal ++
        "' was retired and can never be re-registered (non-reuse invariant, D-412)")
    | .retire, .retired => throw ("law.principal.retire: PRINCIPAL_RETIRED — '" ++ toText principal ++
        "' is already retired (retired is forever, D-412)")
    | .retire, .active => return some (retireRecord now next existing)
    | _, _ => return none

end Operations

section Interleaving

/-- An operation under way: waiting for the record, or for the append of its own. -/
structure Flight where
  operation : Operation
  principal : JsString
  writing : Option PrincipalRecord

structure Identities where
  rows : JsString → List Value
  flights : ℕ → Option Flight

inductive IdentityEvent
  | start (call : ℕ) (operation : Operation) (principal : JsString)
  | read (call : ℕ) (failure : Option String) (now next : Number)
  | append (call : ℕ) (applied : Bool)

/-- `vault.get@1` of the latest row. -/
def latest (rows : JsString → List Value) (principal : JsString) (failure : Option String) :
    Except String Value :=
  match failure with
  | some err => throw err
  | none => required (rows principal).getLast? "vault.get: not found"

def identityStep (s : Identities) : IdentityEvent → Option Identities
  | .start call operation principal =>
    if s.flights call = none ∧ principal ≠ [] then
      some { s with flights := Function.update s.flights call (some ⟨operation, principal, none⟩) }
    else none
  | .read call failure now next =>
    match s.flights call with
    | some ⟨operation, principal, none⟩ =>
      let existing := readPrincipalRecord principal (latest s.rows principal failure)
      let flight := match nextRecord operation principal now next existing with
        | .ok (some rec) => some ⟨operation, principal, some rec⟩
        | _ => none
      some { s with flights := Function.update s.flights call flight }
    | _ => none
  | .append call applied =>
    match s.flights call with
    | some ⟨_, principal, some rec⟩ =>
      some ⟨if applied then Function.update s.rows principal (s.rows principal ++ [rowOf rec]) else s.rows,
        Function.update s.flights call none⟩
    | _ => none

def IsRetired (row : Value) : Prop := ∃ rec, fromRecord row = some rec ∧ rec.state = .retired

/-- Whatever follows a retired row is retired. -/
def Sealed (rows : List Value) : Prop := rows.Pairwise fun a b => IsRetired a → IsRetired b

def identities : System Identities IdentityEvent where
  init s := (∀ p, Sealed (s.rows p)) ∧ s.flights = fun _ => none
  step := identityStep

/-- The operations on one principal come one after the other, and no record that is there is missed. -/
def OneByOne (s : Identities) : IdentityEvent → Prop
  | .start _ _ principal => ∀ call f, s.flights call = some f → f.principal ≠ principal
  | .read call failure _ _ => ∀ f, s.flights call = some f → failure ≠ none →
      readPrincipalRecord f.principal (latest s.rows f.principal none) = none
  | .append _ _ => True

variable {s t : Identities} {rows : List Value} {principal : JsString} {now next : Number}
  {rec : PrincipalRecord}

lemma requirePrincipal_of_new (h : newRecord now principal = .ok rec) :
    requirePrincipal principal = .ok () := by
  obtain ⟨_, hok, _⟩ := bind_eq_ok h
  exact hok

lemma new_state (h : newRecord now principal = .ok rec) : rec.principal = principal ∧ rec.state = .active := by
  obtain ⟨_, _, h⟩ := bind_eq_ok h
  cases h
  exact ⟨rfl, rfl⟩

lemma isRetired_rowOf (h : rec.principal ≠ []) : IsRetired (rowOf rec) ↔ rec.state = .retired := by
  constructor
  · rintro ⟨found, hfound, hstate⟩
    rw [fromRecord_rowOf h] at hfound
    cases hfound
    exact hstate
  · intro hstate
    exact ⟨rec, fromRecord_rowOf h, hstate⟩

lemma Sealed.concat {row : Value} (h : Sealed rows)
    (hrow : IsRetired row ∨ ∀ r ∈ rows, ¬ IsRetired r) : Sealed (rows ++ [row]) := by
  refine List.pairwise_append.mpr ⟨h, List.pairwise_singleton _ _, fun a ha b hb hretired => ?_⟩
  obtain rfl := List.mem_singleton.mp hb
  exact hrow.elim id fun hnone => absurd hretired (hnone a ha)

/-- Of sealed rows, a retired one is seen in the last. -/
lemma Sealed.last_retired {row last : Value} (h : Sealed rows) (hrow : row ∈ rows) (hretired : IsRetired row)
    (hlast : rows.getLast? = some last) : IsRetired last := by
  obtain ⟨front, rfl⟩ := List.getLast?_eq_some_iff.mp hlast
  obtain hfront | hend := List.mem_append.mp hrow
  · exact (List.pairwise_append.mp h).2.2 row hfront last (List.mem_singleton_self _) hretired
  · rwa [← List.mem_singleton.mp hend]

lemma readPrincipalRecord_ok {data : Value} (hvalid : requirePrincipal principal = .ok ()) :
    readPrincipalRecord principal (.ok data) = fromRecord data := by
  unfold readPrincipalRecord
  rw [hvalid]

lemma readPrincipalRecord_some {reply : Except String Value}
    (h : readPrincipalRecord principal reply = some rec) : ∃ data, fromRecord data = some rec := by
  unfold readPrincipalRecord at h
  split at h
  · exact ⟨_, h⟩
  · cases h

lemma Sealed.not_retired {all : JsString → List Value} (h : Sealed (all principal))
    (hvalid : requirePrincipal principal = .ok ())
    (hread : readPrincipalRecord principal (latest all principal none) = none) :
    ∀ row ∈ all principal, ¬ IsRetired row := by
  intro row hrow hretired
  cases hlast : (all principal).getLast? with
  | none =>
    rw [List.getLast?_eq_none_iff.mp hlast] at hrow
    cases hrow
  | some last =>
    obtain ⟨found, hfound, _⟩ := h.last_retired hrow hretired hlast
    have hreply : latest all principal none = .ok last := by
      rw [latest, hlast]
      rfl
    rw [hreply, readPrincipalRecord_ok hvalid, hfound] at hread
    cases hread

lemma nextRecord_cases {operation : Operation} {existing : Option PrincipalRecord}
    (h : nextRecord operation principal now next existing = .ok (some rec)) :
    existing = none ∧ newRecord now principal = .ok rec ∨
      ∃ old, existing = some old ∧ rec = retireRecord now next old := by
  cases existing with
  | none =>
    left
    have hnew : (newRecord now principal).map some = .ok (some rec) := by
      cases operation with
      | retire => cases h
      | register => exact h
      | ensure => exact h
    cases hresult : newRecord now principal with
    | error err =>
      rw [hresult] at hnew
      cases hnew
    | ok new =>
      rw [hresult] at hnew
      cases hnew
      exact ⟨rfl, rfl⟩
  | some old =>
    right
    refine ⟨old, rfl, ?_⟩
    obtain ⟨principal, kind, registeredAt, state, retiredAt, generation⟩ := old
    cases operation <;> cases state <;> cases h
    rfl

lemma fromRecord_named {data : Value} (h : fromRecord data = some rec) : rec.principal ≠ [] := by
  obtain ⟨name, hname, h⟩ := Option.bind_eq_some_iff.mp h
  obtain ⟨_, _, h⟩ := Option.bind_eq_some_iff.mp h
  obtain ⟨_, _, h⟩ := Option.bind_eq_some_iff.mp h
  obtain ⟨_, _, h⟩ := Option.bind_eq_some_iff.mp h
  cases h
  rintro rfl
  unfold nameOf at hname
  split at hname <;> simp_all

/-- No two operations on one principal, and an active record is written only where none is retired. -/
structure Orderly (s : Identities) : Prop where
  rows_sealed : ∀ p, Sealed (s.rows p)
  alone : ∀ c d f g, s.flights c = some f → s.flights d = some g → f.principal = g.principal → c = d
  named : ∀ c f, s.flights c = some f → f.principal ≠ []
  writes : ∀ c f rec, s.flights c = some f → f.writing = some rec → rec.principal ≠ [] ∧
    (rec.state = .retired ∨ ∀ row ∈ s.rows f.principal, ¬ IsRetired row)

lemma Orderly.update (h : Orderly s) (call : ℕ) {flight : Option Flight}
    (halone : ∀ f, flight = some f → ∀ c g, c ≠ call → s.flights c = some g → g.principal ≠ f.principal)
    (hnamed : ∀ f, flight = some f → f.principal ≠ [])
    (hwrites : ∀ f rec, flight = some f → f.writing = some rec → rec.principal ≠ [] ∧
      (rec.state = .retired ∨ ∀ row ∈ s.rows f.principal, ¬ IsRetired row)) :
    Orderly { s with flights := Function.update s.flights call flight } where
  rows_sealed := h.rows_sealed
  alone := by
    intro c d f g hf hg hsame
    simp only [Function.update_apply] at hf hg
    split_ifs at hf hg with hc hd hd
    · rw [hc, hd]
    · exact absurd hsame.symm (halone f hf d g hd hg)
    · exact absurd hsame (halone g hg c f hc hf)
    · exact h.alone c d f g hf hg hsame
  named := by
    intro c f hf
    simp only [Function.update_apply] at hf
    split_ifs at hf
    · exact hnamed f hf
    · exact h.named c f hf
  writes := by
    intro c f rec hf hwriting
    simp only [Function.update_apply] at hf
    split_ifs at hf
    · exact hwrites f rec hf hwriting
    · exact h.writes c f rec hf hwriting

lemma Orderly.finish (h : Orderly s) (call : ℕ) :
    Orderly { s with flights := Function.update s.flights call none } := by
  refine h.update call ?_ ?_ ?_
  · intro f hf
    cases hf
  · intro f hf
    cases hf
  · intro f rec hf
    cases hf

lemma orderly_start {call : ℕ} {operation : Operation} (h : Orderly s)
    (hok : OneByOne s (.start call operation principal))
    (hstep : identityStep s (.start call operation principal) = some t) : Orderly t := by
  rw [identityStep] at hstep
  split_ifs at hstep with hfree
  cases hstep
  refine h.update call ?_ ?_ ?_
  · rintro f hf c g _ hg
    cases hf
    exact hok c g hg
  · rintro f hf
    cases hf
    exact hfree.2
  · rintro f rec hf hwriting
    cases hf
    cases hwriting

lemma orderly_read {call : ℕ} {failure : Option String} (h : Orderly s)
    (hok : OneByOne s (.read call failure now next))
    (hstep : identityStep s (.read call failure now next) = some t) : Orderly t := by
  dsimp only [identityStep] at hstep
  split at hstep
  on_goal 2 => cases hstep
  next operation principal hflight =>
  obtain rfl := Option.some.inj hstep
  clear hstep
  split
  on_goal 2 => exact h.finish call
  next rec hnext =>
  have hnamed := h.named call _ hflight
  refine h.update call ?_ ?_ ?_
  · rintro f hf c g hne hg hsame
    cases hf
    exact hne (h.alone c call g _ hg hflight hsame)
  · rintro f hf
    cases hf
    exact hnamed
  · rintro f new hf hwriting
    cases hf
    cases hwriting
    obtain ⟨hnone, hnew⟩ | ⟨old, hold, rfl⟩ := nextRecord_cases hnext
    · have hvalid := requirePrincipal_of_new hnew
      refine ⟨(new_state hnew).1 ▸ hnamed, Or.inr ?_⟩
      refine (h.rows_sealed principal).not_retired hvalid ?_
      cases failure with
      | none => exact hnone
      | some err => exact hok _ hflight nofun
    · obtain ⟨data, hdata⟩ := readPrincipalRecord_some hold
      have hname : old.principal ≠ [] := fromRecord_named hdata
      exact ⟨hname, Or.inl rfl⟩

lemma orderly_append {call : ℕ} {applied : Bool} (h : Orderly s)
    (hstep : identityStep s (.append call applied) = some t) : Orderly t := by
  dsimp only [identityStep] at hstep
  split at hstep
  on_goal 2 => cases hstep
  next operation principal rec hflight =>
  cases hstep
  obtain ⟨hname, hrec⟩ := h.writes call _ rec hflight rfl
  have hrest := h.finish call
  cases applied with
  | false => exact hrest
  | true =>
    have hother : ∀ c f, Function.update s.flights call none c = some f → f.principal ≠ principal := by
      intro c f hf hsame
      simp only [Function.update_apply] at hf
      split_ifs at hf with hc
      exact hc (h.alone c call f _ hf hflight hsame)
    refine ⟨fun p => ?_, hrest.alone, hrest.named, fun c f new hf hwriting => ?_⟩
    · have hrow : IsRetired (rowOf rec) ∨ ∀ row ∈ s.rows principal, ¬ IsRetired row :=
        hrec.imp (isRetired_rowOf hname).mpr id
      change Sealed (Function.update s.rows principal (s.rows principal ++ [rowOf rec]) p)
      rw [Function.update_apply]
      split_ifs
      · exact (h.rows_sealed principal).concat hrow
      · exact h.rows_sealed p
    · obtain ⟨hnew, hwrites⟩ := hrest.writes c f new hf hwriting
      refine ⟨hnew, hwrites.imp id fun hnone => ?_⟩
      change ∀ row ∈ Function.update s.rows principal (s.rows principal ++ [rowOf rec]) f.principal, _
      rw [Function.update_of_ne (hother c f hf)]
      exact hnone

/-- Where the operations on a principal do not overlap and no read of a record fails, retired is forever. -/
theorem retired_forever (h : identities.Reachable OneByOne s) (p : JsString) : Sealed (s.rows p) := by
  have horderly : Orderly s := by
    refine h.invariant ?_ ?_
    · rintro s ⟨hrows, hflights⟩
      refine ⟨hrows, ?_, ?_, ?_⟩ <;> simp [hflights]
    · intro s e t _ hs hok hstep
      cases e with
      | start call operation principal => exact orderly_start hs hok hstep
      | read call failure now next => exact orderly_read hs hok hstep
      | append call applied => exact orderly_append hs hstep
  exact horderly.rows_sealed p

lemma oneByOne_read {call : ℕ} : OneByOne s (.read call none now next) :=
  fun _ _ hfailure => absurd rfl hfailure

def noIdentities : Identities := ⟨fun _ => [], fun _ => none⟩

lemma noIdentities_init : identities.init noIdentities := ⟨fun _ => List.Pairwise.nil, rfl⟩

/-- A principal is registered. -/
theorem retired_forever_registered : ∃ s, identities.Reachable OneByOne s ∧
    Sealed (s.rows (ofText "user:alice")) ∧ (s.rows (ofText "user:alice")).length = 1 := by
  have hstart : OneByOne noIdentities (.start 0 .register (ofText "user:alice")) := by
    intro c f hf
    cases hf
  have hreach := ((System.Reachable.start noIdentities_init).next hstart rfl).next oneByOne_read
    (e := IdentityEvent.read 0 none oneNumber oneNumber) rfl
  have happended := hreach.next (e := IdentityEvent.append 0 true) trivial rfl
  exact ⟨_, happended, retired_forever happended _, rfl⟩

/-- The first registration has read nothing when the principal is registered and retired by others. -/
def resurrection : List IdentityEvent :=
  let alice := ofText "user:alice"
  [.start 0 .register alice, .read 0 none oneNumber oneNumber,
    .start 1 .register alice, .read 1 none oneNumber oneNumber, .append 1 true,
    .start 2 .retire alice, .read 2 none oneNumber oneNumber, .append 2 true, .append 0 true]

def rowState (row : Value) : Option PrincipalState := (fromRecord row).map PrincipalRecord.state

lemma isRetired_iff {row : Value} : IsRetired row ↔ rowState row = some .retired := by
  rw [rowState, Option.map_eq_some_iff]
  rfl

lemma Sealed.states (h : Sealed rows) :
    (rows.map rowState).Pairwise fun a b => a = some .retired → b = some .retired :=
  List.pairwise_map.mpr (h.imp fun hab ha => isRetired_iff.mp (hab (isRetired_iff.mpr ha)))

/-- A principal that was retired has an active record again. -/
theorem retired_resurrected :
    ¬ ∀ s, identities.Reachable System.free s → ∀ p, Sealed (s.rows p) := by
  intro h
  have hrun : (identities.exec System.free noIdentities resurrection).map
      (fun s => decide ((s.rows (ofText "user:alice")).map rowState =
        [some .active, some .retired, some .active])) = some true := by decide
  obtain ⟨t, hreach, hstates⟩ := System.exec_spec noIdentities_init hrun
  have hsealed := (h t hreach (ofText "user:alice")).states
  rw [of_decide_eq_true hstates] at hsealed
  exact absurd hsealed (by decide)

end Interleaving

end VivimOmega.Law

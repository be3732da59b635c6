import VivimOmega.Library.Double
import VivimOmega.Library.Json.Reading
import VivimOmega.Library.Text
import VivimOmega.Library.Utf8
import VivimOmega.Perception.Graph

/-! Event traces of an observed page, and the causal edges derived from them. -/

namespace VivimOmega.Observation

open Library Library.Json Perception

section Parsing

inductive TraceEventType
  | click | type | network | domUpdate
  deriving DecidableEq

structure TraceEvent where
  type : TraceEventType
  targetSelector : JsString
  ts : ℤ
  detail : Option (List (JsString × Value))

structure ParsedTrace where
  events : List TraceEvent
  spans : List Span

def eventTypeOf : Value → Option TraceEventType
  | .string s =>
    if s = ofText "click" then some .click
    else if s = ofText "type" then some .type
    else if s = ofText "network" then some .network
    else if s = ofText "dom-update" then some .domUpdate
    else none
  | _ => none

/-- What the digits of a number say, before they are rounded to a double. -/
def written : Number → Option ℚ
  | .zero => some 0
  | .finite negative d =>
    let magnitude : ℚ := digitsValue d.digits * 10 ^ (d.point - d.digits.length)
    some (if negative then -magnitude else magnitude)
  | _ => none

/-- A number whose double is finite and an integer. -/
def integerTs : Value → Option ℤ
  | .number n => (written n).bind fun q =>
    if |double q| < 2 ^ 1024 ∧ (double q).den = 1 then some (double q).num else none
  | _ => none

def nonEmptyString : Value → Option JsString
  | .string s => if s = [] then none else some s
  | _ => none

def objectOf : Value → Option (List (JsString × Value))
  | .object members => some members
  | _ => none

def detailOf : Value → Option (Option (List (JsString × Value)))
  | .undefined => some none
  | v => (objectOf v).map some

variable (syntaxError : List Char → String)

def eventOf (byteCursor : ℕ) (line : List Char) : Except String TraceEvent := do
  let parsed ← required (parse line)
    ("parseTrace: malformed event line at byte " ++ toString byteCursor ++ ": " ++ syntaxError line)
  let event := "parseTrace: event line at byte " ++ toString byteCursor
  let ev ← required (objectOf parsed) (event ++ " must be an object")
  let kind := optionalProperty (.object ev) "type"
  let kind ← required (eventTypeOf kind) (event ++ " has bad type " ++ (← shown kind))
  let targetSelector ← required (nonEmptyString (optionalProperty (.object ev) "targetSelector"))
    (event ++ " must carry a non-empty targetSelector")
  let ts ← required (integerTs (optionalProperty (.object ev) "ts")) (event ++ " must carry an integer ts")
  let detail ← required (detailOf (optionalProperty (.object ev) "detail"))
    (event ++ " detail must be an object when provided")
  return ⟨kind, targetSelector, ts, detail⟩

/-- The events of the lines from a byte on, with their spans; a blank line carries no event. -/
def parseLines : ℕ → List (List Char) → Except String (List (TraceEvent × Span))
  | _, [] => return []
  | byteCursor, line :: rest => do
    let bytes := (Utf8.encode line).length
    if line.all Text.isBlank then parseLines (byteCursor + (bytes + 1)) rest
    else do
      let event ← eventOf syntaxError byteCursor line
      let more ← parseLines (byteCursor + (bytes + 1)) rest
      return (event, ⟨byteCursor, byteCursor + bytes⟩) :: more

def parseTrace (text : List Char) : Except String ParsedTrace := do
  let parsed ← parseLines syntaxError 0 (text.splitOn '\n')
  return ⟨parsed.map Prod.fst, parsed.map Prod.snd⟩

end Parsing

section Derivation

structure Source where
  ns : JsString
  id : JsString
  rev : ℕ

structure Group where
  cause : TraceEvent
  causeLine : ℕ
  networkLines : List ℕ

structure DeriveResult where
  edges : List CausalEdge
  skippedUnresolved : ℕ
  unattributedUpdates : ℕ

/-- The result so far, and the group that is open. -/
structure Derived extends DeriveResult where
  group : Option Group

def requestIdOf (ev : TraceEvent) : Option JsString :=
  ev.detail.bind fun detail => nonEmptyString (optionalProperty (.object detail) "requestId")

variable (events : List TraceEvent) (spans : List Span) (resolve : JsString → Option JsString) (source : Source)

def ref (line : ℕ) : EvidenceRef where
  ns := source.ns
  id := source.id
  rev := source.rev
  casRef := source.ns ++ ofText "/" ++ source.id ++ ofText "@" ++ natText source.rev
  span := spans[line]?

def joinsLineage (group : Group) (ev : TraceEvent) : Prop :=
  group.networkLines = [] ∨ requestIdOf ev = none ∨
    ∃ j ∈ group.networkLines, ∃ g ∈ events[j]?, requestIdOf g ≠ none ∧ requestIdOf g = requestIdOf ev

instance instDecidableJoinsLineage (group : Group) (ev : TraceEvent) : Decidable (joinsLineage events group ev) := by
  unfold joinsLineage
  infer_instance

/-- The group that is open after an event. No update of the page causes one. -/
def nextGroup (open? : Option Group) (line : ℕ) (ev : TraceEvent) : Option Group :=
  match ev.type, open? with
  | .domUpdate, group => group
  | .network, some group =>
    if joinsLineage events group ev then some { group with networkLines := group.networkLines ++ [line] }
    else some ⟨ev, line, []⟩
  | _, _ => some ⟨ev, line, []⟩

def triggerOf : TraceEventType → EdgeTrigger
  | .click => .click
  | .type => .type
  | _ => .network

/-- A difference of times is that of doubles, where a value from `2 ^ 1024` on stands for the infinity. -/
def edge (group : Group) (line : ℕ) (ev : TraceEvent) (from? to? : JsString) (number : ℕ) : CausalEdge where
  id := ofText "e" ++ natText number
  source := from?
  target := to?
  trigger := triggerOf group.cause.type
  latencyMs := double (ev.ts - group.cause.ts)
  evidence := (group.causeLine :: group.networkLines ++ [line]).map (ref spans source)

def deriveStep (s : Derived) (line : ℕ) (ev : TraceEvent) : Derived :=
  if ev.type ≠ .domUpdate then { s with group := nextGroup events s.group line ev }
  else
    match s.group with
    | none => { s with unattributedUpdates := s.unattributedUpdates + 1 }
    | some group =>
      match resolve group.cause.targetSelector, resolve ev.targetSelector with
      | some from?, some to? => { s with edges := s.edges ++ [edge spans source group line ev from? to? s.edges.length] }
      | _, _ => { s with skippedUnresolved := s.skippedUnresolved + 1 }

/-- The loop after its first events. -/
def derived : ℕ → Derived
  | 0 => ⟨⟨[], 0, 0⟩, none⟩
  | line + 1 =>
    match events[line]? with
    | some ev => deriveStep events spans resolve source (derived line) line ev
    | none => derived line

def deriveEdges : DeriveResult := (derived events spans resolve source events.length).toDeriveResult

/-- The node whose selector it is, the first of them. -/
def graphResolver (nodes : List GraphNode) (selector : JsString) : Option JsString :=
  (nodes.find? fun n => n.selectorHint = selector).map GraphNode.id

end Derivation

end VivimOmega.Observation

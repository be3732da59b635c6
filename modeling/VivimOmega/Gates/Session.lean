import VivimOmega.Library.Json.Order
import VivimOmega.Library.Json.Reading
import VivimOmega.Nlcl.Text

/-! The session ledger: its stream of events, and the chain that witnesses it. -/

namespace VivimOmega.Gates

open Library Library.Json

section Events

abbrev Line := List Char

/-- What `Date` makes of texts: the times that it reads, and its own spelling of a time. -/
structure Calendar where
  parse : JsString → Option ℤ
  toISOString : ℤ → JsString
  parse_iso : ∀ t, parse (toISOString t) = some t

def sessionKinds : List JsString :=
  ["plan", "code", "test", "gate-run", "decision", "repair", "note", "block", "unblock"].map ofText

def gateRun : JsString := ofText "gate-run"

/-- The stamp is the source's `at`. -/
structure SessionEvent where
  stamp : JsString
  tMs : Number
  kind : JsString
  note : JsString
  data : Option (List (JsString × Value))

/-- Times are whole milliseconds. -/
structure OpenSession where
  id : JsString
  mission : JsString
  agent : JsString
  beganAt : JsString
  beganAtMs : ℤ

structure StreamLink where
  line : ℕ
  sha256 : JsString
  prev : JsString
  deriving DecidableEq

structure StreamChain where
  chain : List StreamLink
  head : JsString
  deriving DecidableEq

def genesis : JsString := ofText "genesis"

def SessionEvent.value (e : SessionEvent) : Value :=
  .object ([(ofText "at", .string e.stamp), (ofText "tMs", .number e.tMs), (ofText "kind", .string e.kind),
    (ofText "note", .string e.note)] ++ (e.data.map fun data => (ofText "data", Value.object data)).toList)

/-- The line of an event whose data is plain. -/
def serializeEvent (e : SessionEvent) : Line := e.value.render

/-- Why a line is no event: it throws, or these are its issues. -/
inductive EventFault
  | typeError
  | issues (texts : List String)

def dataOf : Value → Option (Option (List (JsString × Value)))
  | .undefined => some none
  | .object members => some (some members)
  | _ => none

def numberOf? : Value → Option Number
  | .number n => some n
  | _ => none

/-- `trim` is looked up on every note that is truthy, and only strings have it. -/
def isNote (note : Value) : Except EventFault Bool :=
  if isFalsy note then .ok false
  else
    match textOf note with
    | some s => .ok (Nlcl.trim s ≠ [])
    | none => .error .typeError

variable (cal : Calendar)

def eventIssues (raw : Value) (hasNote : Bool) : List String :=
  let stamp := optionalProperty raw "at"
  let tMs := optionalProperty raw "tMs"
  let kind := optionalProperty raw "kind"
  (if ((textOf stamp).bind cal.parse).isSome then [] else ["at \"" ++ jsString stamp ++ "\" must be a parseable ISO timestamp"]) ++
  (if (numberOf? tMs).any fun n => decide n.IsFinite && !n.lt .zero then []
    else ["tMs " ++ jsString tMs ++ " must be a non-negative finite number"]) ++
  (if (textOf kind).any (· ∈ sessionKinds) then []
    else ["kind \"" ++ jsString kind ++ "\" illegal (" ++ " | ".intercalate (sessionKinds.map toText) ++ ")"]) ++
  (if hasNote then [] else ["note is required and must be non-empty"]) ++
  (if (dataOf (optionalProperty raw "data")).isSome then [] else ["data must be a JSON object when present"])

/-- A value without issues, at its type. -/
def eventOf (raw : Value) : Option SessionEvent := do
  let stamp ← textOf (optionalProperty raw "at")
  let tMs ← numberOf? (optionalProperty raw "tMs")
  let kind ← textOf (optionalProperty raw "kind")
  let note ← textOf (optionalProperty raw "note")
  let data ← dataOf (optionalProperty raw "data")
  return ⟨stamp, tMs, kind, note, data⟩

def checkEvent (raw : Value) (hasNote : Bool) : Except EventFault SessionEvent :=
  if eventIssues cal raw hasNote = [] then
    match eventOf raw with
    | some e => .ok e
    | none => .error .typeError
  else .error (.issues (eventIssues cal raw hasNote))

def parseEvent (line : Line) : Except EventFault SessionEvent :=
  match parse line with
  | none => .error (.issues ["not valid JSON"])
  | some raw =>
    if raw matches .null then .error .typeError
    else
      match isNote (optionalProperty raw "note") with
      | .error fault => .error fault
      | .ok hasNote => checkEvent cal raw hasNote

/-- An event as the ledger writes it. -/
structure Wellformed (e : SessionEvent) : Prop where
  stamp : (cal.parse e.stamp).isSome
  finite : e.tMs.IsFinite
  elapsed : e.tMs.lt .zero = false
  kind : e.kind ∈ sessionKinds
  note : Nlcl.trim e.note ≠ []
  data : ∀ members ∈ e.data, Value.Plain (.object members)

variable {cal} {e : SessionEvent}

lemma properties_value (e : SessionEvent) : optionalProperty e.value "at" = .string e.stamp ∧
    optionalProperty e.value "tMs" = .number e.tMs ∧ optionalProperty e.value "kind" = .string e.kind ∧
    optionalProperty e.value "note" = .string e.note ∧
    dataOf (optionalProperty e.value "data") = some e.data := by
  unfold SessionEvent.value
  cases e.data <;> simp [optionalProperty_cons, optionalProperty_nil, dataOf]

lemma plain_value (h : Wellformed cal e) : Value.Plain e.value := by
  unfold SessionEvent.value
  cases hdata : e.data with
  | none =>
    refine .object (by simp [ofText_injective.eq_iff]) ?_
    simp [Value.Plain.string, Value.Plain.number h.finite]
  | some members =>
    refine .object (by simp [ofText_injective.eq_iff]) ?_
    simp [Value.Plain.string, Value.Plain.number h.finite, h.data members hdata]

/-- What the ledger writes is read as the event that it was. -/
lemma parseEvent_serialize (h : Wellformed cal e) : parseEvent cal (serializeEvent e) = .ok e := by
  obtain ⟨hstamp, htMs, hkind, hnote, hdata⟩ := properties_value e
  have hparse : parse (serializeEvent e) = some e.value := parse_render (plain_value h)
  have hnotes : isNote (.string e.note) = .ok true := by
    have hne : e.note ≠ [] := by
      rintro hnil
      have htrim := h.note
      rw [hnil] at htrim
      exact htrim rfl
    simp [isNote, isFalsy, textOf, hne, h.note]
  have hissues : eventIssues cal e.value true = [] := by
    simp [eventIssues, hstamp, htMs, hkind, hdata, textOf, numberOf?, h.stamp, h.finite, h.elapsed, h.kind]
  have hevent : eventOf e.value = some e := by
    simp [eventOf, hstamp, htMs, hkind, hnote, hdata, textOf, numberOf?]
  rw [parseEvent, hparse]
  simp only [SessionEvent.value, Bool.false_eq_true, if_false]
  rw [← SessionEvent.value, hnote, hnotes]
  simp only [checkEvent, hissues, if_true, hevent]

end Events

section Chain

variable (cal : Calendar) (sha256 : Line → JsString)

/-- Line numbers are as the source counts them, from one. -/
inductive ChainIssue
  | deleted (first last : ℕ)
  | unchained (first last : ℕ)
  | lineClaim (link line : ℕ)
  | hashMismatch (line : ℕ) (recorded actual : JsString)
  | prevBroken (line : ℕ) (prev : JsString)
  | headMismatch (head recomputed : JsString)
  | invalid (line : ℕ) (fault : EventFault)

def ChainIssue.text : ChainIssue → String
  | .deleted first last => s!"SESSION_CHAIN_BROKEN: chain links {first}..{last} have no line — event line(s) {first}..{last} were deleted after chaining"
  | .unchained first last => s!"SESSION_CHAIN_BROKEN: line(s) {first}..{last} are unchained — added outside the ledger"
  | .lineClaim link line => s!"SESSION_CHAIN_BROKEN: link {link} claims line {line}"
  | .hashMismatch line recorded actual => "SESSION_CHAIN_BROKEN: line " ++ toString line ++ " hash mismatch — recorded " ++
      toText (recorded.take 8) ++ "…, actual " ++ toText (actual.take 8) ++ "… (edited or corrupted after chaining)"
  | .prevBroken line prev => "SESSION_CHAIN_BROKEN: line " ++ toString line ++ " prev " ++ toText (prev.take 8) ++ "… does not continue the chain"
  | .headMismatch head recomputed => "SESSION_CHAIN_BROKEN: chain head " ++ toText (head.take 8) ++ "… ≠ recomputed " ++ toText (recomputed.take 8) ++ "…"
  | .invalid line (.issues texts) => "SESSION_EVENT_INVALID: line " ++ toString line ++ ": " ++ "; ".intercalate texts
  | .invalid _ .typeError => "TypeError"

/-- The links against the lines, the first of which has the number given. -/
def linkIssues : ℕ → JsString → List StreamLink → List Line → List ChainIssue
  | n, prev, link :: links, line :: lines =>
    (if link.line ≠ n then [.lineClaim n link.line] else []) ++
    (if sha256 line ≠ link.sha256 then [.hashMismatch n link.sha256 (sha256 line)] else []) ++
    (if link.prev ≠ prev then [.prevBroken n link.prev] else []) ++ linkIssues (n + 1) link.sha256 links lines
  | _, _, [], _ => []
  | _, _, _ :: _, [] => []

/-- The hash that the links which have a line end with. -/
def lastHash (links : List StreamLink) (lines : List Line) : JsString :=
  ((links.take lines.length).getLast?.map StreamLink.sha256).getD genesis

def eventFaults : ℕ → List Line → List ChainIssue
  | _, [] => []
  | n, line :: lines =>
    match parseEvent cal line with
    | .ok _ => eventFaults (n + 1) lines
    | .error fault => .invalid n fault :: eventFaults (n + 1) lines

/-- A fault that is a TypeError is thrown by the source; either way the stream is not verified. -/
def verifyChain (lines : List Line) (chain : StreamChain) : List ChainIssue :=
  let links := chain.chain
  (if lines.length < links.length then [.deleted (lines.length + 1) links.length]
    else if links.length < lines.length then [.unchained (links.length + 1) lines.length] else []) ++
  linkIssues sha256 1 genesis links lines ++
  (if 0 < min links.length lines.length ∧ chain.head ≠ lastHash links lines then
    [.headMismatch chain.head (lastHash links lines)] else []) ++
  eventFaults cal 1 lines

structure Stream where
  lines : List Line
  chain : StreamChain

inductive SessionRefusal
  | noneOpen
  | shape (fault : EventFault)
  | chainBroken (first : ChainIssue)
  | timeRegress (tMs : ℤ) (last : Number)

def lastTMs (lines : List Line) : Number :=
  match lines.getLast? with
  | none => .zero
  | some line =>
    match parseEvent cal line with
    | .ok e => e.tMs
    | .error _ => .zero

def pushLine (s : Stream) (line : Line) : Stream :=
  ⟨s.lines ++ [line], ⟨s.chain.chain ++ [⟨s.lines.length + 1, sha256 line, s.chain.head⟩], sha256 line⟩⟩

/-- The stream afterwards, the number of the line and its time. -/
def appendSessionEvent (opened : Option OpenSession) (s : Stream) (kind note : JsString)
    (data : Option (List (JsString × Value))) (now : ℤ) : Except SessionRefusal (Stream × ℕ × ℤ) :=
  match opened with
  | none => .error .noneOpen
  | some opened =>
    match parseEvent cal (serializeEvent ⟨cal.toISOString now, .zero, kind, note, data⟩) with
    | .error fault => .error (.shape fault)
    | .ok event =>
      match verifyChain cal sha256 s.lines s.chain with
      | issue :: _ => .error (.chainBroken issue)
      | [] =>
        let tMs := now - opened.beganAtMs
        if s.lines ≠ [] ∧ (Number.ofInt tMs).lt (lastTMs cal s.lines) then .error (.timeRegress tMs (lastTMs cal s.lines))
        else
          let line := serializeEvent ⟨cal.toISOString now, .ofInt tMs, event.kind, event.note, event.data⟩
          .ok (pushLine sha256 s line, s.lines.length + 1, tMs)

variable {cal sha256} {s : Stream} {line : Line} {lines : List Line} {links : List StreamLink} {prev : JsString} {n : ℕ}

lemma linkIssues_append {link : StreamLink} (hlength : links.length = lines.length) :
    linkIssues sha256 n prev (links ++ [link]) (lines ++ [line]) = [] ↔
      linkIssues sha256 n prev links lines = [] ∧ link.line = n + lines.length ∧ sha256 line = link.sha256 ∧
        link.prev = (links.getLast?.map StreamLink.sha256).getD prev := by
  induction links generalizing lines n prev with
  | nil =>
    obtain rfl := List.eq_nil_of_length_eq_zero hlength.symm
    simp [linkIssues]
  | cons l links ih =>
    cases lines with
    | nil => cases hlength
    | cons x lines =>
      have hlast : ((l :: links).getLast?.map StreamLink.sha256).getD prev =
          (links.getLast?.map StreamLink.sha256).getD l.sha256 := by
        cases links with
        | nil => rfl
        | cons m links => simp [List.getLast?_cons]
      rw [List.cons_append, List.cons_append, linkIssues, linkIssues, hlast, List.length_cons]
      simp only [List.append_eq_nil_iff, ih (Nat.succ.inj hlength), and_assoc, Nat.add_assoc, Nat.add_comm 1]

lemma eventFaults_append : eventFaults cal n (lines ++ [line]) = [] ↔
    eventFaults cal n lines = [] ∧ ∃ e, parseEvent cal line = .ok e := by
  induction lines generalizing n with
  | nil =>
    cases h : parseEvent cal line <;> simp [eventFaults, h]
  | cons x lines ih =>
    rw [List.cons_append, eventFaults, eventFaults]
    cases parseEvent cal x with
    | error fault => simp
    | ok e => exact ih

/-- The chain of a verified stream starts at its beginning, also where it is empty. -/
def Anchored (s : Stream) : Prop := s.lines ≠ [] ∨ s.chain.head = genesis

lemma verified_iff : verifyChain cal sha256 s.lines s.chain = [] ↔ s.chain.chain.length = s.lines.length ∧
    linkIssues sha256 1 genesis s.chain.chain s.lines = [] ∧
    (s.lines ≠ [] → s.chain.head = (s.chain.chain.getLast?.map StreamLink.sha256).getD genesis) ∧
    eventFaults cal 1 s.lines = [] := by
  unfold verifyChain
  simp only [List.append_eq_nil_iff]
  constructor
  · rintro ⟨⟨⟨hlength, hlinks⟩, hhead⟩, hevents⟩
    have heq : s.chain.chain.length = s.lines.length := by
      split_ifs at hlength
      omega
    refine ⟨heq, hlinks, fun hne => ?_, hevents⟩
    have hpos := List.length_pos_iff.mpr hne
    by_contra hdiff
    rw [lastHash, ← heq, List.take_length] at hhead
    rw [if_pos ⟨by omega, hdiff⟩] at hhead
    cases hhead
  · rintro ⟨hlength, hlinks, hhead, hevents⟩
    refine ⟨⟨⟨?_, hlinks⟩, ?_⟩, hevents⟩
    · rw [if_neg (by omega), if_neg (by omega)]
    · rw [if_neg]
      rintro ⟨hpos, hdiff⟩
      rw [lastHash, ← hlength, List.take_length] at hdiff
      exact hdiff (hhead (List.length_pos_iff.mp (by omega)))

lemma verified_push (h : verifyChain cal sha256 s.lines s.chain = []) (hline : ∃ e, parseEvent cal line = .ok e) :
    verifyChain cal sha256 (pushLine sha256 s line).lines (pushLine sha256 s line).chain = [] ↔ Anchored s := by
  obtain ⟨hlength, hlinks, hhead, hevents⟩ := verified_iff.mp h
  rw [verified_iff]
  simp only [pushLine, List.length_append, List.length_singleton, hlength, linkIssues_append hlength, eventFaults_append,
    hlinks, hevents, hline, true_and, and_true, Nat.add_comm 1, List.getLast?_append, List.getLast?_singleton,
    Option.some_or, Option.map_some, Option.getD_some, implies_true, Anchored]
  constructor
  · intro hprev
    by_cases hempty : s.lines = []
    · rw [hempty, List.length_nil] at hlength
      rw [List.eq_nil_of_length_eq_zero hlength] at hprev
      exact .inr hprev
    · exact .inl hempty
  · rintro (hne | hgenesis)
    · exact hhead hne
    · by_cases hempty : s.lines = []
      · rw [hempty, List.length_nil] at hlength
        rw [List.eq_nil_of_length_eq_zero hlength]
        exact hgenesis
      · exact hhead hempty

end Chain

end VivimOmega.Gates

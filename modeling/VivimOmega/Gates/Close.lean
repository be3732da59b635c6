import VivimOmega.Gates.DevVault

/-! The close of a session: its lessons graduate, and its stream is sealed. -/

namespace VivimOmega.Gates

open Library Library.Json

section Lessons

variable (U : Nlcl.Unicode) (cal : Calendar)

/-- Every run of the other units becomes a dash. -/
def dashed : JsString → JsString
  | [] => []
  | u :: rest =>
    if isLetterOrDigit u then u :: dashed rest
    else if rest.head?.any fun v => !isLetterOrDigit v then dashed rest
    else 45 :: dashed rest

def withoutHead (s : JsString) : JsString := if s.head? = some 45 then s.tail else s

def withoutLast (s : JsString) : JsString := if s.getLast? = some 45 then s.dropLast else s

def slugOf (s : JsString) : JsString := (withoutLast (withoutHead (dashed (U.toLowerCase s)))).take 40

def slugify (s : JsString) : JsString := if slugOf U s = [] then ofText "session" else slugOf U s

structure Lesson where
  statement : JsString
  evidence : List JsString
  appliesTo : List JsString
  type : Option DevType

def wellShaped (l : Lesson) : Bool := Nlcl.trim l.statement ≠ [] && l.evidence ≠ [] && l.evidence.all fun c => Nlcl.trim c ≠ []

/-- The digits of the day. -/
def dayOf (now : ℤ) : JsString := ((cal.toISOString now).take 10).filter (· ≠ 45)

def lessonId (now : ℤ) (l : Lesson) : JsString := dayOf cal now ++ 45 :: slugify U l.statement

def entryPath (id : JsString) : JsString := entriesDir ++ id ++ json

def lessonEntry (o : OpenSession) (now : ℤ) (l : Lesson) : DevEntry where
  id := lessonId U cal now l
  type := l.type.getD .lesson
  stamp := cal.toISOString now
  agent := o.agent
  context := ofText "session " ++ o.id ++ ofText ": " ++ o.mission ++ ofText " (D-430 close — graduated from the session retrospective)"
  statement := l.statement
  evidence := l.evidence
  appliesTo := if l.appliesTo ≠ [] then l.appliesTo else [ofText "Ω-DEV.6"]

/-- What the close keeps of it in memory. -/
def graduated (o : OpenSession) (now : ℤ) (l : Lesson) : DevEntry :=
  { lessonEntry U cal o now l with context := ofText "graduated", appliesTo := l.appliesTo }

def hasStatement (statement : JsString) (e : Value) : Bool := textOf (optionalProperty e "statement") = some statement

end Lessons

section Store

structure ClosedLesson where
  vaultId : Value
  statement : JsString
  evidence : List JsString
  appliesTo : List JsString

structure ClosedEnvelope where
  id : JsString
  mission : JsString
  agent : JsString
  beganAt : JsString
  closedAt : JsString
  wallMs : Number
  events : List SessionEvent
  chain : StreamChain
  streamSha256 : JsString
  lessons : List ClosedLesson

structure ClosedIndexRow where
  id : JsString
  mission : JsString
  beganAt : JsString
  closedAt : JsString
  events : ℕ
  wallMs : Number
  lessons : ℕ
  streamSha256 : JsString

/-- The files of the sessions and those of the development vault. The stream is its lines; an envelope that does not parse
is none. -/
structure Store where
  opened : JsonFile OpenSession
  stream : Option (List Line)
  chain : JsonFile StreamChain
  closed : OrderedMap JsString (Option ClosedEnvelope)
  index : JsonFile (List ClosedIndexRow)
  vault : DevVault

inductive FileWrite
  | entry
  | ledger
  | envelope
  | index
  | opened
  | stream
  | chain
  deriving DecidableEq

inductive CloseFault
  | noneOpen
  | unreadable (file : String)
  | emptyStream
  | retrospectiveRequired
  | chainBroken (first : ChainIssue)
  | typeError
  | lessonShape
  | entryInvalid (fault : EventFault)
  | devChainBroken (first : DevIssue)
  | entryExists (path : JsString)

def CloseFault.text : CloseFault → String
  | .noneOpen => "refused: SESSION_NONE_OPEN — no session is open (nothing to close)"
  | .unreadable file => file ++ " is malformed"
  | .emptyStream => "refused: SESSION_EMPTY_STREAM — a session with zero events cannot claim a retrospective; log the work (omega:session log / import --gates)"
  | .retrospectiveRequired => "refused: SESSION_RETROSPECTIVE_REQUIRED — the close IS the retrospective: pass ≥1 lesson (--lesson \"…\" --evidence a,b --applies x), each cited, graduating to the dev-vault; no retrospective, no publish (D-430)"
  | .chainBroken first => "refused: SESSION_CHAIN_BROKEN — will not seal a broken chain (" ++ first.text ++ "); repair first, the chain is the witness"
  | .typeError => "TypeError"
  | .lessonShape => "refused: SESSION_LESSON_SHAPE — each lesson needs a non-empty statement and ≥1 non-empty evidence citation (an uncited lesson is an opinion — the dev-vault's own law, D-428)"
  | .entryInvalid (.issues texts) => "refused: " ++ "; ".intercalate texts
  | .entryInvalid .typeError => "TypeError"
  | .devChainBroken first => "refused: DEV_CHAIN_BROKEN — will not extend a broken chain (" ++ first.text ++ "); repair before appending"
  | .entryExists path => "refused: DEV_ENTRY_EXISTS — dev-vault/" ++ toText path ++ " is written once; append-only means never rewritten (supersede with a new entry that cites this one)"

def readChain : JsonFile StreamChain → Option StreamChain
  | .absent => some ⟨[], genesis⟩
  | .malformed => none
  | .holds chain => some chain

def readIndex : JsonFile (List ClosedIndexRow) → Option (List ClosedIndexRow)
  | .absent => some []
  | .malformed => none
  | .holds rows => some rows

def readLines (s : Store) : List Line := s.stream.getD []

def canonicalEventBytes (events : List SessionEvent) : Line := events.flatMap fun e => serializeEvent e ++ ['\n']

end Store

section Close

variable (U : Nlcl.Unicode) (cal : Calendar) (sha256 : Line → JsString)

def recordDevEntry (e : DevEntry) : Writing Store FileWrite CloseFault Unit :=
  match parseEntry (serializeEntry e) with
  | .error fault => .refuse (.entryInvalid fault)
  | .ok _ => do
    let s ← .look
    match readLedger s.vault.ledger with
    | none => .refuse (.unreadable "DEV_LEDGER_UNREADABLE: dev-vault/ledger.json")
    | some ledger =>
      match verifyDevVault sha256 s.vault.files ledger with
      | issue :: _ => .refuse (.devChainBroken issue)
      | [] =>
        if (s.vault.files.get? (entryPath e.id)).isSome then .refuse (.entryExists (entryPath e.id))
        else do
          .write .entry fun s => { s with vault.files := s.vault.files.set (entryPath e.id) (serializeEntry e) }
          .write .ledger fun s => { s with vault.ledger := .holds (pushEntry sha256 ledger (entryPath e.id) (serializeEntry e)) }

/-- The entries are those of the vault and those that this close has recorded. -/
def recordLessons (o : OpenSession) (now : ℤ) : List Value → List Lesson → Writing Store FileWrite CloseFault (List Value)
  | _, [] => pure []
  | existing, l :: rest =>
    if !wellShaped l then .refuse .lessonShape
    else
      match existing.find? (hasStatement l.statement) with
      | some prior => do
        let ids ← recordLessons o now existing rest
        pure (optionalProperty prior "id" :: ids)
      | none => do
        recordDevEntry sha256 (lessonEntry U cal o now l)
        let ids ← recordLessons o now (existing ++ [(graduated U cal o now l).value]) rest
        pure (.string (lessonId U cal now l) :: ids)

def wallMs (events : List SessionEvent) : Number :=
  match events.getLast? with
  | none => .zero
  | some e => if Number.zero.lt e.tMs then e.tMs else .zero

def sealedEnvelope (o : OpenSession) (now : ℤ) (events : List SessionEvent) (chain : StreamChain) (lessons : List Lesson)
    (ids : List Value) : ClosedEnvelope where
  id := o.id
  mission := o.mission
  agent := o.agent
  beganAt := o.beganAt
  closedAt := cal.toISOString now
  wallMs := wallMs events
  events := events
  chain := chain
  streamSha256 := sha256 (canonicalEventBytes events)
  lessons := List.zipWith (fun l id => ⟨id, l.statement, l.evidence, l.appliesTo⟩) lessons ids

def indexRow (env : ClosedEnvelope) : ClosedIndexRow :=
  ⟨env.id, env.mission, env.beganAt, env.closedAt, env.events.length, env.wallMs, env.lessons.length, env.streamSha256⟩

/-- The envelope, the row of the index and the end of the open state. -/
def sealSession (env : ClosedEnvelope) : Writing Store FileWrite CloseFault ClosedEnvelope := do
  .write .envelope fun s => { s with closed := s.closed.set env.id (some env) }
  let s ← .look
  match readIndex s.index with
  | none => .refuse (.unreadable "sessions/closed/index.json")
  | some rows => do
    .write .index fun s => { s with index := .holds (rows ++ [indexRow env]) }
    .write .opened fun s => { s with opened := .absent }
    .write .stream fun s => { s with stream := none }
    .write .chain fun s => { s with chain := .absent }
    pure env

def closeSession (lessons : List Lesson) (now : ℤ) : Writing Store FileWrite CloseFault ClosedEnvelope := do
  let s ← .look
  match s.opened with
  | .absent => .refuse .noneOpen
  | .malformed => .refuse (.unreadable "SESSION_STORE_UNREADABLE: sessions/open.json")
  | .holds o =>
    if readLines s = [] then .refuse .emptyStream
    else if lessons = [] then .refuse .retrospectiveRequired
    else
      match readChain s.chain with
      | none => .refuse (.unreadable "SESSION_STORE_UNREADABLE: sessions/stream.chain.json")
      | some chain =>
        match verifyChain cal sha256 (readLines s) chain with
        | issue :: _ => .refuse (.chainBroken issue)
        | [] =>
          match readLedger s.vault.ledger with
          | none => .refuse (.unreadable "DEV_LEDGER_UNREADABLE: dev-vault/ledger.json")
          | some ledger =>
            match loadEntries s.vault.files ledger.chain with
            | none => .refuse .typeError
            | some existing => do
              let ids ← recordLessons U cal sha256 o now existing lessons
              sealSession (sealedEnvelope cal sha256 o now ((readLines s).filterMap (eventAt cal)) chain lessons ids)

end Close

section Verify

variable (cal : Calendar) (sha256 : Line → JsString)

inductive StoreIssue
  | unreadable (file : String)
  | chain (issue : ChainIssue)
  | orphanStream (lines : ℕ)
  | missing (id : JsString)
  | unparseable (id : JsString)
  | digests (id recomputed envelope index : JsString)
  | counts (id : JsString) (events row : ℕ)
  | orphan (id : JsString)

def StoreIssue.text : StoreIssue → String
  | .unreadable file => "SESSION_STORE_UNREADABLE: " ++ file ++ " is malformed"
  | .chain issue => issue.text
  | .orphanStream lines => s!"SESSION_ORPHAN: stream.jsonl has {lines} lines but no open session — seal or clear it (an unowned stream is unverifiable)"
  | .missing id => "SESSION_ENVELOPE_MISSING: closed/" ++ toText id ++ ".json is pinned by the index but absent"
  | .unparseable id => "SESSION_ENVELOPE_TAMPERED: closed/" ++ toText id ++ ".json is not parseable JSON"
  | .digests id recomputed envelope index => "SESSION_ENVELOPE_TAMPERED: closed/" ++ toText id ++ ".json — recomputed stream digest " ++
      toText (recomputed.take 8) ++ "… ≠ envelope " ++ toText (envelope.take 8) ++ "…/index " ++ toText (index.take 8) ++ "… (events edited after the seal)"
  | .counts id events row => "SESSION_ENVELOPE_TAMPERED: closed/" ++ toText id ++ ".json — " ++ toString events ++ " events ≠ index row's " ++ toString row
  | .orphan id => "SESSION_ORPHAN: closed/" ++ toText id ++ ".json exists but no index row pins it (an unpinned envelope is unverifiable)"

structure SessionVerifyResult where
  issues : List StoreIssue
  opened : Option OpenSession
  openEvents : ℕ
  closedCount : ℕ

def rowIssues (closed : OrderedMap JsString (Option ClosedEnvelope)) (row : ClosedIndexRow) : List StoreIssue :=
  match closed.get? row.id with
  | none => [.missing row.id]
  | some none => [.unparseable row.id]
  | some (some env) =>
    let digest := sha256 (canonicalEventBytes env.events)
    (if digest ≠ env.streamSha256 ∨ digest ≠ row.streamSha256 then [.digests row.id digest env.streamSha256 row.streamSha256] else []) ++
    (if env.events.length ≠ row.events then [.counts row.id env.events.length row.events] else [])

/-- The envelopes against the rows of the index, which pin them. -/
def closedIssues (closed : OrderedMap JsString (Option ClosedEnvelope)) (rows : List ClosedIndexRow) : List StoreIssue :=
  rows.flatMap (rowIssues sha256 closed) ++
    (closed.keys.filter fun id => !(rows.map ClosedIndexRow.id).contains id).map StoreIssue.orphan

def openIssues (s : Store) (opened : Option OpenSession) : List StoreIssue :=
  match opened with
  | some _ =>
    match readChain s.chain with
    | none => [.unreadable "sessions/stream.chain.json"]
    | some chain => (verifyChain cal sha256 (readLines s) chain).map StoreIssue.chain
  | none => if readLines s ≠ [] then [.orphanStream (readLines s).length] else []

/-- The source throws where the chain of an open stream is malformed. -/
def verifySessions (s : Store) : SessionVerifyResult :=
  match s.opened with
  | .malformed => ⟨[.unreadable "sessions/open.json"], none, 0, 0⟩
  | opened =>
    let open? := match opened with | .holds o => some o | _ => none
    let openEvents := if open?.isSome then (readLines s).length else 0
    match readIndex s.index with
    | none => ⟨openIssues cal sha256 s open? ++ [.unreadable "sessions/closed/index.json"], open?, openEvents, 0⟩
    | some rows => ⟨openIssues cal sha256 s open? ++ closedIssues sha256 s.closed rows, open?, openEvents, rows.length⟩

end Verify

end VivimOmega.Gates

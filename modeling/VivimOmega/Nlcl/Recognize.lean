import VivimOmega.Library.Double
import VivimOmega.Library.Pattern
import VivimOmega.Nlcl.Grammar

/-! The recognizers of whole phrases, which run before the frames are tried. -/

namespace VivimOmega.Nlcl

open Library Library.Json

section Expressions

abbrev Regex := Pattern UInt16

namespace Regex

open Pattern

def lit (s : String) : Regex := Pattern.text (ofText s)

def choice (ss : List String) : Regex := alts (ss.map lit)

def blanks : Regex := many true 1 isSpace

def maybeBlanks : Regex := many true 0 isSpace

def isDot (u : UInt16) : Bool := !(u = 10 || u = 13 || u = 0x2028 || u = 0x2029)

/-- `.+`, `.+?` and `.*` -/
def dots (greedy : Bool) (least : ℕ) : Regex := many greedy least isDot

def isNamePart (u : UInt16) : Bool := isWordUnit u || u = dash

/-- `[\w-]+` -/
def name : Regex := many true 1 isNamePart

/-- `\b` -/
def boundary : Regex := border fun prev next => prev.any isWordUnit != next.any isWordUnit

/-- A word of its own that may be left out. -/
def maybe (r : Regex) : Regex := opt (seq r blanks)

def article : Regex := seq (lit "a") (opt (lit "n"))

def message : Regex := choice ["message", "email"]

def writes : Regex := choice ["messages", "emails", "writes"]

def toMe : Regex := seqs [maybe (lit "to"), lit "me", boundary]

end Regex

/-- The text without a run of these at its end. -/
def stripEnd (marks : String) (s : JsString) : JsString := s.rdropWhile fun u => u ∈ ofText marks

def matched (r : Regex) (s : JsString) : Option (Pattern.Groups UInt16) := (r.exec s).map Prod.snd

def capture (g : Pattern.Groups UInt16) (n : ℕ) : JsString := (g n).getD []

/-- Strips one pair of quotes, the pairs tried in order. -/
def unquote (s : JsString) : JsString :=
  let t := trim s
  let pairs : List (UInt16 × UInt16) := [(39, 39), (34, 34), (0x201C, 0x201D), (0x2018, 0x2019), (0xAB, 0xBB)]
  match pairs.find? fun p => 2 ≤ t.length && t.head? = some p.1 && t.getLast? = some p.2 with
  | some _ => t.tail.dropLast
  | none => t

end Expressions

structure Recognized where
  ir : IR
  gaps : List GapNote := []

def irBase (intent : String) (family : Family) : IR :=
  { intent := ofText intent, family, slots := .empty, payload := [], canonical := [], confidence := 1 / 2 }

def valueSlot (value : JsString) (canonical : JsString) (confidence : ℚ) : IRSlot :=
  { value := .string value, canonical, confidence }

def text (s : String) : Value := .string (ofText s)

def nullable (s : Option JsString) : Value := (s.map Value.string).getD .null

variable (U : Engine)

section Contacts

structure ContactGrounding where
  entityId : Option JsString
  label : JsString
  canonical : JsString
  address : Option JsString
  found : List EntityMatch := []
  gaps : List GapNote := []

def anyoneWords : List JsString := texts ["anyone", "anybody", "someone", "any", "everyone"]

open Regex Pattern in
def withoutArticle (s : JsString) : JsString :=
  match (seq (choice ["a", "an", "the"]) blanks).exec s with
  | some (place, _) => place.after
  | none => s

def isAnyone (phrase : JsString) : Bool :=
  let t := withoutArticle (fold U.toUnicode phrase)
  t = [] || t ∈ anyoneWords

def contactTypes : Option (List JsString) := some (texts ["contact"])

def senderGrounding (phrase : JsString) (world : WorldModel) : GroundResult :=
  groundPhrase U (withoutArticle (fold U.toUnicode phrase)) world.entities contactTypes

def groundContact (phrase : JsString) (world : WorldModel) : ContactGrounding :=
  if isAnyone U phrase then ⟨none, ofText "anyone", ofText "*", none, [], []⟩
  else
    let g := senderGrounding U phrase world
    match g.primary with
    | some p =>
      { entityId := some p.entity.id
        label := p.entity.label
        canonical := entitySymbol p.entity
        address := p.entity.textField "address"
        found := if 1 < g.found.length then g.found.take 5 else [] }
    | none =>
      { entityId := none
        label := phrase
        canonical := phraseSymbol U phrase
        address := none
        gaps := [⟨.unresolvedSlot, doubleQuoted phrase ++ ofText " is not a known contact",
          some (ofText "contacts are learned from message history — simulate a message from them first")⟩] }

end Contacts

section Queries

open Regex Pattern in
def queryPhrase (s : JsString) : Option JsString :=
  let t := trim (stripEnd "?!." (fold U.toUnicode s))
  let isQuery := seqs [choice ["who", "what"], blanks, lit "is", blanks, maybe article, group 1 (dots true 1), stop]
  let tell := seqs [lit "tell me about", blanks, group 1 (dots true 1), stop]
  (((matched isQuery t).or (matched tell t)).map (capture · 1)).map fun phrase =>
    if phrase.head? = some (unitOf '@') then phrase.tail else phrase

def recognizeEntityQuery (s : JsString) (world : WorldModel) : Option Recognized :=
  (queryPhrase U s).map fun phrase =>
    let g := groundPhrase U phrase world.entities none
    let ir := irBase "surface.entity" .reference
    match g.primary with
    | some p =>
      let e := p.entity
      let slot : IRSlot :=
        { value := .string e.id
          canonical := entitySymbol e
          entityId := some e.id
          confidence := if g.ambiguous then 55 / 100 else p.score
          found := if 1 < g.found.length then g.found.take 5 else []
          note := some (if g.ambiguous then ofText (toString g.found.length) ++ ofText " entities match — pick one"
            else e.type) }
      { ir :=
          { ir with
            slots := ir.slots.set (ofText "entity") slot
            payload := [(ofText "entityId", .string e.id)]
            canonical := ofText "@" ++ secondPart e.id }
        gaps := if g.ambiguous then
            [⟨.ambiguity, ofText (toString g.found.length) ++ ofText " entities match " ++ doubleQuoted phrase, none⟩]
          else [] }
    | none =>
      { ir := { ir with canonical := phraseSymbol U phrase }
        gaps := [⟨.unresolvedSlot, ofText "no entity matches " ++ doubleQuoted phrase,
          some (ofText "contacts appear after you exchange messages")⟩] }

def helpPhrases : List JsString :=
  texts ["help", "what can i say", "what can you do", "commands", "?", "what can i type", "cheat sheet", "symbols"]

def isQuerySymbol (t : Token) : Bool := t.kind = .symbol && t.norm = ofText "?"

def helpIr : IR := { irBase "surface.help" .query with canonical := ofText "?" }

open Regex Pattern in
def capabilityVerb (t : JsString) : Option JsString :=
  (matched (seqs [lit "what", blanks, lit "can", blanks, maybe (lit "i"), group 1 name, boundary, dots true 0, stop]) t).map
    (capture · 1)

/-- The search for what a verb can do. -/
def capabilities (t : JsString) (world : WorldModel) : Option Recognized :=
  (capabilityVerb t).bind fun verb =>
    let hits := (framesForWorld U world).filter fun f => verbHits U verb [f] world ≠ []
    if hits = [] then none
    else
      some { ir :=
        { irBase "surface.help" .query with
          payload := [(ofText "focus", .string verb), (ofText "ops", .array (hits.map fun f => .string f.op))]
          canonical := ofText "? what can " ++ verb } }

def queried (tokens : List Token) : JsString :=
  trim (joined (tokens.map fun t => if t.kind = .quote then t.quote.getD [] else t.text))

def recognizeHelp (folded : JsString) (tokens : List Token) (world : WorldModel) : Option Recognized :=
  let t := trim (stripEnd "?!." folded)
  if t = [] then none
  else if t ∈ helpPhrases then some { ir := helpIr }
  else
    match capabilities U t world, tokens with
    | some found, _ => some found
    | none, first :: rest =>
      if isQuerySymbol first then
        let delegated := if queried rest = [] then none else recognizeEntityQuery U (queried rest) world
        some (delegated.getD { ir := helpIr })
      else none
    | none, [] => none

end Queries

section Inbox

open Regex Pattern in
def inboxFolder (folded : JsString) : Option JsString :=
  (matched (seqs [lit "what", opt (choice ["'s", " is"]), blanks, lit "in", blanks, maybe (lit "my"),
    group 1 (choice ["inbox", "sent", "archive", "trash"]), stop]) (stripEnd "?!." (trim folded))).map (capture · 1)

def recognizeInbox (folded : JsString) : Option Recognized :=
  (inboxFolder folded).map fun folder =>
    let ir := irBase "message.list@1" .query
    { ir :=
        { ir with
          slots := ir.slots.set (ofText "folder") (valueSlot folder folder (95 / 100))
          payload := [(ofText "folder", .string folder)]
          canonical := ofText "/list in " ++ folder } }

end Inbox

section Teaching

open Regex Pattern in
def teachPhrase (t : JsString) : Option (JsString × JsString) :=
  let target := seqs [opt (seq (opt (lit "a")) blanks), group 2 (dots true 1), stop]
  let teach := seqs [lit "teach", blanks, group 1 name, blanks, choice ["means", "is", "as", "="], blanks, target]
  let means := seqs [group 1 name, blanks, lit "means", blanks, target]
  let symbolic := seqs [group 1 name, maybeBlanks, lit "=", maybeBlanks, opt (lit "/"), maybeBlanks,
    group 2 (many true 1 fun u => isWordUnit u || u = unitOf '.'), opt (seq (lit "@") (many true 1 isDigit)), stop]
  (((matched teach t).or (matched means t)).or (matched symbolic t)).map fun g => (capture g 1, capture g 2)

open Regex Pattern in
def forgetPhrase (t : JsString) : Option JsString :=
  (matched (seqs [choice ["forget", "unteach", "remove word"], blanks, group 1 name, stop]) t).map (capture · 1)

def namesOp (target op : JsString) : Bool :=
  op = target || op = target ++ ofText "@1" || (ofText "." ++ target ++ ofText "@1").isSuffixOf op

def teachLe (a b : VerbHit) : Prop :=
  (a.cls = .exact ∧ b.cls ≠ .exact) ∨ (a.cls = .exact ↔ b.cls = .exact) ∧ U.localeLe a.frame.op b.frame.op = true

instance teachLeDecidable (a b : VerbHit) : Decidable (teachLe U a b) := by
  unfold teachLe
  infer_instance

/-- The op that a taught word is to mean: one of the world by its name, or the op of a verb. -/
def teachTarget (target : JsString) (world : WorldModel) : Option JsString :=
  match world.ops.find? (namesOp target) with
  | some op => some op
  | none => ((verbHits U target (framesForWorld U world) world).insertionSort (teachLe U)).head?.map fun h => h.frame.op

def lastOpPart (op : JsString) : JsString := ((opLocal op).splitOnP isOpSeparator).getLastD []

def taughtTarget (s : JsString) : JsString :=
  let target := fold U.toUnicode s
  if target.head? = some (unitOf '/') then target.tail else target

/-- An op without a name counts as none. -/
def taughtOp (s : JsString) (world : WorldModel) : Option JsString :=
  (teachTarget U (taughtTarget U s) world).filter (· ≠ [])

def teachIr (word : JsString) (family : Family) : IR :=
  let ir := irBase "director.teach@1" family
  { ir with slots := ir.slots.set (ofText "word") (valueSlot word word (95 / 100)) }

def recognizeTeach (folded : JsString) (world : WorldModel) : Option Recognized :=
  let t := trim folded
  match teachPhrase t with
  | some (spoken, meant) =>
    let word := fold U.toUnicode spoken
    let ir := teachIr word .assert
    match taughtOp U meant world with
    | some op =>
      let symbol := ofText "/" ++ lastOpPart op
      some { ir :=
        { ir with
          slots := ir.slots.set (ofText "op") (valueSlot op symbol (95 / 100))
          payload := [(ofText "word", .string word), (ofText "op", .string op), (ofText "action", text "add")]
          canonical := word ++ ofText " = " ++ symbol
          confidence := 85 / 100 } }
    | none =>
      some {
        ir :=
          { ir with
            payload := [(ofText "word", .string word), (ofText "op", .null), (ofText "action", text "add")]
            canonical := word ++ ofText " = ?" }
        gaps := [⟨.unknownWord, doubleQuoted (taughtTarget U meant) ++ ofText " is not a verb I know",
          some (ofText "teach needs a target op — try: teach blitz means send")⟩] }
  | none =>
    (forgetPhrase t).map fun spoken =>
      let word := fold U.toUnicode spoken
      { ir :=
          { teachIr word .remove with
            payload := [(ofText "word", .string word), (ofText "action", text "remove")]
            canonical := ofText "-" ++ word } }

end Teaching

section Rules

def ruleTypes : Option (List JsString) := some (texts ["rule"])

open Regex Pattern in
def isListing (t : JsString) : Bool :=
  (seqs [opt (choice ["list", "show"]), maybeBlanks, maybe (lit "my"), choice ["rules", "automations"], stop]).test t

open Regex Pattern in
def disablePhrase (t : JsString) : Option JsString :=
  let verb := choice ["disable", "pause", "stop"]
  ((matched (seqs [verb, blanks, lit "rule", blanks, group 1 (dots true 1), stop]) t).or
    (matched (seqs [verb, blanks, maybe (lit "the"), group 1 (dots false 1), blanks, lit "rule", stop]) t)).map
      (capture · 1)

open Regex Pattern in
def enablePhrase (t : JsString) : Option JsString :=
  (matched (seqs [choice ["enable", "resume", "activate"], blanks, lit "rule", blanks, group 1 (dots true 1), stop]) t).map
    (capture · 1)

/-- Switching a rule on or off, by a phrase that is to name it. -/
def switchRule (action sign : String) (family : Family) (phrase : JsString) (world : WorldModel) : Recognized :=
  let g := groundPhrase U phrase world.entities ruleTypes
  let rule := g.primary.map EntityMatch.entity
  { ir :=
      { irBase "director.registry@1" family with
        payload := [(ofText "action", text action), (ofText "ruleId", nullable (rule.map EntityView.id)),
          (ofText "phrase", .string phrase)]
        canonical := ofText sign ++ ofText "rule " ++
          (rule.map fun e => (e.id.splitOn colon)[1]?.getD []).getD phrase }
    gaps := if rule.isSome then [] else [⟨.unresolvedSlot, ofText "no rule matches " ++ doubleQuoted phrase, none⟩] }

open Regex Pattern in
def definitionPhrase (t : JsString) : Option (JsString × JsString) :=
  (matched (seqs [choice ["when", "whenever", "if"], blanks, group 1 (dots false 1), lit ",", maybeBlanks,
    maybe (lit "then"), group 2 (dots true 1), stop]) t).map fun g => (trim (capture g 1), trim (capture g 2))

open Regex Pattern in
/-- Whose message the trigger speaks of; a trigger in no known form is taken for a contact if it grounds as one. -/
def triggerSender (trig : JsString) (world : WorldModel) : Option JsString :=
  let anyone := seqs [lit "any", opt (choice ["one", "body"]), blanks, choice ["messages", "emails", "writes", "sends"],
    blanks, lit "me", boundary]
  let writesMe := seqs [group 1 (dots false 1), blanks, writes, blanks, toMe,
    opt (seqs [blanks, lit "saying", blanks, dots true 0]), stop]
  let received := seqs [lit "i", blanks, choice ["receive", "get"], blanks, maybe (lit "a"), message, blanks,
    lit "from", blanks, group 1 (dots true 1), stop]
  let arrives := seqs [maybe (lit "a"), message, blanks,
    alts [lit "arrives", seqs [lit "is", blanks, lit "received"], lit "comes"], blanks, lit "from", blanks,
    group 1 (dots true 1), stop]
  let sends := seqs [group 1 (dots false 1), blanks, lit "send", opt (lit "s"), blanks, lit "me", blanks,
    maybe (lit "a"), maybe article, message, stop]
  if anyone.test trig then some (ofText "anyone")
  else
    match (((matched writesMe trig).or (matched received trig)).or (matched arrives trig)).or (matched sends trig) with
    | some g => some (capture g 1)
    | none =>
      (matched (seqs [group 1 (dots true 1), stop]) trig).bind fun g =>
        let whole := capture g 1
        if fold U.toUnicode whole ∉ CONTEXT_WORDS ∧ (groundPhrase U whole world.entities contactTypes).found ≠ [] then
          some whole
        else none

def ruleScore (c : Candidate) : ℚ :=
  let s : ℚ := (if c.ir.intent = ofText "message.send@1" then -2 else 0) - if c.filling.requiredMissing = [] then 1 else 0
  double (s + double (c.unknownWords.length * double (1 / 10)))

def ruleLe (a b : Candidate) : Prop :=
  ruleScore a < ruleScore b ∨ ruleScore a = ruleScore b ∧ U.localeLe a.ir.intent b.ir.intent = true

instance ruleLeDecidable (a b : Candidate) : Decidable (ruleLe U a b) := by
  unfold ruleLe
  infer_instance

def ruleActions (action : JsString) (world : WorldModel) : List Candidate :=
  ((matchFrames U (lex U.toUnicode action).tokens world (some .triggerMessage)).take 3).insertionSort (ruleLe U)

def triggerEventText : JsString := ofText "message.received"

def ruleLead (sender : ContactGrounding) : JsString :=
  ofText "on " ++ triggerEventText ++ ofText " from " ++ sender.canonical

/-- The action's payload, marked where a slot of it waits for the message that triggers the rule. -/
def actionPayload (best : IR) : List (JsString × Value) :=
  if best.slots.values.any fun s => s.contextRef = some .triggerMessage then
    assign best.payload (ofText "messageFromTrigger") (.bool true)
  else best.payload

def definedRule (sender : ContactGrounding) (best : IR) : Recognized :=
  let ir := irBase "director.rule@1" .add
  let trigger : Value := .object [(ofText "event", .string triggerEventText), (ofText "from", nullable sender.entityId)]
  let slots := (ir.slots.set (ofText "when") { value := trigger, canonical := ruleLead sender, confidence := 9 / 10 }).set
    (ofText "then")
    { value := .string best.intent
      canonical := best.canonical
      confidence := if best.confidence = 0 then 1 / 2 else best.confidence }
  { ir :=
      { ir with
        slots
        payload := [(ofText "when", trigger),
          (ofText "then", .object [(ofText "op", .string best.intent), (ofText "payload", .object (actionPayload best))])]
        canonical := ofText "/rule " ++ ruleLead sender ++ ofText " → " ++ best.canonical
        confidence := 9 / 10 }
    gaps := sender.gaps }

def undefinedRule (sender : ContactGrounding) (action : JsString) : Recognized where
  ir := { irBase "director.rule@1" .add with canonical := ofText "/rule " ++ ruleLead sender ++ ofText " → ?" }
  gaps := [⟨.unknownWord, ofText "action " ++ doubleQuoted action ++ ofText " did not match any command",
    some (ofText "try: forward it to Sarah / send it to Maria")⟩]

def defineRule (trigger action : JsString) (world : WorldModel) : Option Recognized :=
  (triggerSender U trigger world).map fun phrase =>
    let sender := groundContact U phrase world
    match ruleActions U action world with
    | best :: _ => definedRule sender best.ir
    | [] => undefinedRule sender action

def ruleListing : Recognized where
  ir :=
    { irBase "director.registry@1" .query with
      payload := [(ofText "filter", text "rules")]
      canonical := ofText "?rules"
      confidence := 9 / 10 }

def recognizeRule (folded : JsString) (world : WorldModel) : Option Recognized :=
  let t := stripEnd ".!?" (trim folded)
  if isListing t then some ruleListing
  else
    match disablePhrase t, enablePhrase t, definitionPhrase t with
    | some phrase, _, _ => some (switchRule U "disable" "-" .remove phrase world)
    | none, some phrase, _ => some (switchRule U "enable" "+" .add phrase world)
    | none, none, some (trigger, action) => defineRule U trigger action world
    | none, none, none => none

end Rules

section Receiving

open Regex Pattern in
/-- A sender's phrase, and what it is to say. -/
def saying (s : JsString) : JsString × Option JsString :=
  match matched (seqs [group 1 (dots false 1), blanks, lit "saying", blanks, group 2 (dots true 1), stop]) s with
  | some g => (capture g 1, some (unquote (capture g 2)))
  | none => (s, none)

open Regex Pattern in
def receivePhrase (t : JsString) : Option (JsString × Option JsString) :=
  let sender (greedy : Bool) := seqs [lit "from", blanks, group 1 (dots greedy 1), stop]
  let simulate := seqs [choice ["simulate", "pretend", "imagine"], blanks, maybe (lit "a"), maybe (lit "new"), message,
    blanks, sender false]
  let receive := seqs [choice ["receive", "get"], blanks, maybe (lit "a"), message, blanks, sender true]
  let writesMe := seqs [group 1 (dots false 1), blanks, writes, blanks, toMe, maybeBlanks, group 2 (dots true 0), stop]
  let new := seqs [maybe (lit "new"), lit "message", blanks, sender true]
  match (matched simulate t).or (matched receive t), matched writesMe t, matched new t with
  | some g, _, _ => some (saying (capture g 1))
  | none, some g, _ =>
    let body := (matched (seqs [opt (alt (seq (lit ":") maybeBlanks) (seq (lit "saying") blanks)),
      group 1 (dots true 0), stop]) (capture g 2)).map (capture · 1)
    some (capture g 1,
      ((body.filter (· ≠ [])).map unquote).filter fun b => fold U.toUnicode b ≠ [])
  | none, none, some g => some (saying (capture g 1))
  | none, none, none => none

def receiveSubject (label : JsString) : Option JsString → JsString
  | some b => if 48 < b.length then b.take 45 ++ ofText "…" else b
  | none => ofText "message from " ++ label

def recognizeReceive (folded : JsString) (world : WorldModel) : Option Recognized :=
  (receivePhrase U (stripEnd ".!?" (trim folded))).map fun (phrase, said) =>
    let sender := groundContact U phrase world
    let body := said.filter (· ≠ [])
    let ir := irBase "message.receive@1" .command
    let slot : IRSlot :=
      { value := nullable sender.address
        canonical := sender.canonical
        entityId := sender.entityId
        confidence := if sender.entityId.any (· ≠ []) then 9 / 10 else 3 / 10
        found := sender.found
        note := if sender.entityId.any (· ≠ []) then none
          else some (ofText "not a known contact — the message will still be simulated") }
    let slots := ir.slots.set (ofText "from") slot
    { ir :=
        { ir with
          slots := match body with
            | some b => slots.set (ofText "body") (valueSlot b (quoted (b.take 24)) (9 / 10))
            | none => slots
          payload := [(ofText "from", .string (sender.address.getD phrase)), (ofText "body", .string (said.getD [])),
            (ofText "subject", .string (receiveSubject sender.label body)), (ofText "folder", text "inbox")]
          canonical := ofText "/receive from " ++ sender.canonical ++
            ((body.map fun b => ofText " " ++ quoted (b.take 24)).getD [])
          confidence := if sender.entityId.any (· ≠ []) then 85 / 100 else 1 / 2 }
      gaps := sender.gaps }

end Receiving

end VivimOmega.Nlcl

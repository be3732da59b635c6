import VivimOmega.Library.Json.Reading
import VivimOmega.Nlcl.Frames

/-! The frame grammar: from a verb to its frame, to the slots that the words around it fill, to an intent. -/

namespace VivimOmega.Nlcl

open Library Library.Json

section Intents

inductive ContextRef
  | latestMessage | triggerMessage
  deriving DecidableEq

inductive GapKind
  | unknownWord | unresolvedSlot | emptyContext | ambiguity | malformed
  deriving DecidableEq

structure GapNote where
  kind : GapKind
  text : JsString
  hint : Option JsString := none
  deriving DecidableEq

structure IRSlot where
  value : Value
  canonical : JsString
  entityId : Option JsString := none
  contextRef : Option ContextRef := none
  confidence : ℚ
  found : List EntityMatch := []
  note : Option JsString := none

structure Modifiers where
  force : Bool := false
  query : Bool := false
  priority : Bool := false
  fuzzy : Bool := false

structure IR where
  intent : JsString
  family : Family
  slots : OrderedMap JsString IRSlot
  payload : List (JsString × Value)
  modifiers : Modifiers := {}
  canonical : JsString
  confidence : ℚ
  verbs : List JsString := []

end Intents

section Tokens

def isSemantic (t : Token) : Bool :=
  t.kind ≠ .punct && t.kind ≠ .symbol && t.norm ∉ STOPWORDS && !(t.kind = .word && isModifierWord t.norm)

def CONTEXT_REF_WORDS : List JsString := texts ["this", "that", "it", "them", "they"]

def contentRefWords : List JsString := texts ["this", "that", "it", "them", "they", "latest", "last"]

def isPrepToken (t : Token) (fs : FrameSlot) : Bool :=
  if t.kind = .arrow then fs.family = some .direction else t.kind = .word && t.norm ∈ fs.preps

def isBoundary (t : Token) (frame : OpFrame) : Bool :=
  if t.kind = .arrow then frame.slots.any fun s => s.family = some .direction
  else t.kind = .word && t.norm ∈ frame.slots.flatMap FrameSlot.preps

/-- The semantic tokens from an index on. -/
def bodyTokens (tokens : List Token) (start : ℕ) : List Token := (tokens.drop start).filter isSemantic

/-- The tokens whose words the text is made of are kept beside the ones that it takes. -/
structure Mention where
  text : JsString
  quote : Option JsString
  consumed : List ℕ
  mentioned : List ℕ

/-- Where the mention looks for a preposition it passes a list of words for the slot, and a list has no `preps`. -/
def listAsSlot : FrameSlot := { role := [], kind := .rest }

def collect (parts : List JsString) (quote : Option JsString) (consumed mentioned : List ℕ) : List Token → Mention
  | [] => ⟨joined parts, quote, consumed, mentioned⟩
  | t :: rest =>
    let done : Mention := ⟨joined parts, quote, consumed, mentioned⟩
    if t.kind = .punct ∨ t.kind = .symbol then done
    else if t.kind = .arrow then done
    else if t.kind = .word ∧ isPrepToken t listAsSlot then done
    else if t.kind = .word ∧ isModifierWord t.norm then done
    else if t.kind = .word ∧ t.norm ∈ STOPWORDS then collect parts quote (consumed ++ [t.i]) mentioned rest
    else if t.kind = .quote then
      if quote = none ∧ parts = [] then
        collect [t.quote.getD []] (some (t.quote.getD [])) (consumed ++ [t.i]) (mentioned ++ [t.i]) rest
      else done
    else collect (parts ++ [t.norm]) quote (consumed ++ [t.i]) (mentioned ++ [t.i]) rest

def mentionAfter (tokens : List Token) (start : ℕ) : Mention := collect [] none [] [] (tokens.drop start)

end Tokens

variable (U : Engine)

section Slots

structure SlotFill where
  slot : IRSlot
  consumed : List ℕ := []
  ambiguityFlagged : Bool := false
  gaps : List GapNote := []

def quoted (s : JsString) : JsString := ofText "'" ++ s ++ ofText "'"

def abbreviated (s : JsString) : JsString :=
  if 32 < s.length then ofText "'" ++ s.take 32 ++ ofText "…'" else quoted s

def doubleQuoted (s : JsString) : JsString := ofText "\"" ++ s ++ ofText "\""

/-- `s.replace(/\s+/g, "-")` -/
def hyphenated : JsString → JsString
  | [] => []
  | u :: rest =>
    if isSpace u then if rest.head?.any isSpace then hyphenated rest else dash :: hyphenated rest
    else u :: hyphenated rest

def phraseSymbol (phrase : JsString) : JsString := ofText "@" ++ hyphenated (fold U.toUnicode phrase)

def overrideSymbol : ContextRef → JsString
  | .triggerMessage => ofText "@trigger"
  | .latestMessage => ofText "@this"

def overridden (ref : ContextRef) (consumed : List ℕ) : SlotFill :=
  { slot := { value := .null, canonical := overrideSymbol ref, contextRef := some ref, confidence := 9 / 10 }, consumed }

def nothingYet (token0 : Token) (consumed : List ℕ) (hint : String) : SlotFill where
  slot := { value := .null, canonical := ofText "@this", contextRef := some .latestMessage, confidence := 2 / 10 }
  consumed := consumed
  gaps := [⟨.emptyContext, doubleQuoted token0.text ++ ofText " has nothing to point at yet", some (ofText hint)⟩]

/-- For a grounding that found something. -/
def entityFromMatch (g : GroundResult) (p : EntityMatch) : SlotFill where
  slot :=
    { value := entityPayloadValue p.entity
      canonical := entitySymbol p.entity
      entityId := some p.entity.id
      confidence := if g.ambiguous then 55 / 100 else p.score
      found := if 1 < g.found.length then g.found.take 5 else []
      note := if g.ambiguous then some (ofText (toString g.found.length) ++ ofText " entities match — pick one") else none }
  ambiguityFlagged := g.ambiguous

def typesText (types : Option (List JsString)) : JsString := (types.map (ofText "/").intercalate).getD (ofText "entity")

def contextSlot (token0 : Token) (fs : FrameSlot) (world : WorldModel) : SlotFill :=
  match resolveContext U token0.norm world fs.entityTypes with
  | some referent =>
    { slot :=
        { value := entityPayloadValue referent
          canonical := entitySymbol referent
          entityId := some referent.id
          confidence := 9 / 10 }
      consumed := [token0.i] }
  | none => nothingYet token0 [token0.i] "receive a message first (e.g. simulate a message from Peter)"

def refSlot (token0 : Token) (fs : FrameSlot) (world : WorldModel) : SlotFill :=
  let direct := world.entities.find? fun e =>
    e.id = ofText "contact:" ++ token0.norm ∨ e.id = ofText "message:" ++ token0.norm ∨
      (ofText ":" ++ token0.norm).isSuffixOf e.id
  match direct with
  | some e =>
    { slot :=
        { value := entityPayloadValue e, canonical := entitySymbol e, entityId := some e.id, confidence := 98 / 100 } }
  | none =>
    let g := ground U token0.norm world.entities fs.entityTypes
    match g.primary with
    | some p => entityFromMatch g p
    | none =>
      let name := ofText "@" ++ token0.norm
      { slot := { value := .string token0.norm, canonical := name, confidence := 3 / 10 }
        gaps := [⟨.unresolvedSlot, name ++ ofText " did not resolve to a known entity",
          some (ofText "check the world panel for known entities")⟩] }

def phraseSlot (phrase : JsString) (fs : FrameSlot) (world : WorldModel) : SlotFill :=
  if phrase = [] then { slot := { value := .null, canonical := [], confidence := 0 } }
  else
    let g := groundPhrase U phrase world.entities fs.entityTypes
    match g.primary with
    | some p => entityFromMatch g p
    | none =>
      { slot := { value := .string phrase, canonical := phraseSymbol U phrase, confidence := 25 / 100 }
        gaps := [⟨.unresolvedSlot, doubleQuoted phrase ++ ofText " did not match any " ++ typesText fs.entityTypes,
          some (ofText "try an @name from the world panel")⟩] }

def isWordOrRef (t : Token) : Bool := t.kind = .word || t.kind = .ref

def makeEntitySlot (token0 : Token) (mention : Mention) (fs : FrameSlot) (world : WorldModel)
    (contextOverride : Option ContextRef) : SlotFill :=
  if isWordOrRef token0 ∧ token0.norm ∈ CONTEXT_REF_WORDS then
    match contextOverride with
    | some ref => overridden ref [token0.i]
    | none => contextSlot U token0 fs world
  else if token0.kind = .ref then refSlot U token0 fs world
  else phraseSlot U (mention.quote.getD mention.text) fs world

def subjectNote (e : EntityView) (lead : String) : Option JsString :=
  match e.textField "subject" with
  | some s => if s = [] then none else some (ofText lead ++ s)
  | none => none

def literalSlot (token0 : Token) (mention : Mention) : SlotFill :=
  let text := if mention.text = [] then token0.text else mention.text
  { slot := { value := .string text, canonical := quoted (text.take 24), confidence := 8 / 10 }
    consumed := mention.consumed }

def contentSlot (token0 : Token) (mention : Mention) (world : WorldModel) (contextOverride : Option ContextRef) : SlotFill :=
  match mention.quote with
  | some quote =>
    { slot := { value := .string quote, canonical := quoted (quote.take 32), confidence := 95 / 100 }
      consumed := mention.consumed }
  | none =>
    if isWordOrRef token0 ∧ token0.norm ∈ contentRefWords then
      match contextOverride, resolveContext U token0.norm world none with
      | some ref, _ => overridden ref mention.consumed
      | none, some referent =>
        { slot :=
            { value := .string ((referent.textField "body").getD [])
              canonical := entitySymbol referent
              entityId := some referent.id
              contextRef := some .latestMessage
              confidence := 85 / 100
              note := subjectNote referent "subject: " }
          consumed := mention.consumed }
      | none, none => nothingYet token0 mention.consumed "receive a message first"
    else if token0.kind = .ref then
      let referent := world.entities.find? fun e =>
        (ofText ":" ++ token0.norm).isSuffixOf e.id ∧ (e.textField "body").isSome
      match referent with
      | some e =>
        { slot :=
            { value := .string ((e.textField "body").getD [])
              canonical := entitySymbol e
              entityId := some e.id
              confidence := 9 / 10
              note := subjectNote e "subject: Fwd: " }
          consumed := mention.consumed }
      | none => literalSlot token0 mention
    else literalSlot token0 mention

def enumSlot (mention : Mention) (fs : FrameSlot) : SlotFill :=
  let v := fold U.toUnicode (mention.quote.getD mention.text)
  if v ∈ fs.enumValues then
    { slot := { value := .string v, canonical := v, confidence := 9 / 10 }, consumed := mention.consumed }
  else
    { slot := { value := .null, canonical := v, confidence := 3 / 10 }
      consumed := mention.consumed
      gaps := [⟨.unresolvedSlot, doubleQuoted v ++ ofText " is not a valid " ++ fs.role,
        some (ofText "one of: " ++ (ofText ", ").intercalate fs.enumValues)⟩] }

def fillSlotValue (fs : FrameSlot) (token0 : Token) (mention : Mention) (world : WorldModel)
    (contextOverride : Option ContextRef) : SlotFill :=
  match fs.kind with
  | .entity => makeEntitySlot U token0 mention fs world contextOverride
  | .enum => enumSlot U mention fs
  | .content => contentSlot U token0 mention world contextOverride
  | .text =>
    let text := mention.quote.getD mention.text
    { slot := { value := .string text, canonical := abbreviated text, confidence := 85 / 100 }
      consumed := mention.consumed }
  | .rest =>
    { slot := { value := .string mention.text, canonical := mention.text, confidence := 7 / 10 }
      consumed := mention.consumed }

end Slots

section Payload

def lookup (payload : List (JsString × Value)) (key : String) : Value := optionalProperty (.object payload) key

/-- A message that stands for an entity carries that one's body and subject over. -/
def forwarded (slot : IRSlot) (world : WorldModel) (payload : List (JsString × Value)) : List (JsString × Value) :=
  let src := world.entities.find? fun e => some e.id = slot.entityId
  let body := ((src.bind (·.textField "body")).map Value.string).getD (lookup payload "body")
  let subject := (src.bind (·.textField "subject")).getD (ofText "message")
  let carried := assign payload (ofText "body") body
  if isFalsy (lookup carried "subject") then assign carried (ofText "subject") (.string (ofText "Fwd: " ++ subject))
  else carried

def titled (payload : List (JsString × Value)) : List (JsString × Value) :=
  match lookup payload "body" with
  | .string body =>
    if body ≠ [] ∧ isFalsy (lookup payload "subject") then
      assign payload (ofText "subject") (.string (if 48 < body.length then body.take 45 ++ ofText "…" else body))
    else payload
  | _ => payload

def slotPayload (slots : OrderedMap JsString IRSlot) (payload : List (JsString × Value)) (fs : FrameSlot) :
    List (JsString × Value) :=
  match slots.get? fs.role, fs.payloadKey with
  | some s, some key => assign payload key (orElse s.value .null)
  | _, _ => payload

def buildPayload (frame : OpFrame) (slots : OrderedMap JsString IRSlot) (world : WorldModel) : List (JsString × Value) :=
  let payload := frame.slots.foldl (slotPayload slots) []
  if frame.op = ofText "message.send@1" then
    match slots.get? (ofText "message") with
    | some slot =>
      if slot.entityId.any (· ≠ []) then forwarded slot world payload else titled payload
    | none => titled payload
  else payload

def buildCanonical (frame : OpFrame) (slots : OrderedMap JsString IRSlot) : JsString :=
  let parts := frame.slots.filterMap fun fs => (slots.get? fs.role).map fun s =>
    let sym := if s.canonical = [] then ofText "—" else s.canonical
    if fs.family = some .direction then ofText "→ " ++ sym else sym
  ofText "/" ++ joined (opShortName frame.op :: parts)

end Payload

section Filling

/-- What a slot is filled from: the mention that begins at a token, which a hit and the rest of the text are as it stands. -/
structure Claim where
  slot : FrameSlot
  start : Token
  mention : Mention
  asIs : Bool

/-- The claims, and the prepositions that no value followed, are kept beside what the code keeps. -/
structure Filling where
  usedTokens : List ℕ
  consumedAll : List ℕ := []
  slots : OrderedMap JsString IRSlot := .empty
  slotsFilled : ℕ := 0
  slotsRequired : ℕ := 0
  requiredMissing : List JsString := []
  entityAmbiguous : Bool := false
  contextUnresolved : Bool := false
  gaps : List GapNote := []
  claims : List Claim := []
  bare : List Token := []

variable (frame : OpFrame) (tokens : List Token) (verbTok : ℕ) (world : WorldModel)
  (contextOverride : Option ContextRef)

def Claim.fill (c : Claim) : SlotFill :=
  if c.asIs then
    { slot :=
        if c.slot.kind = .enum then
          { value := .string c.mention.text, canonical := c.mention.text, confidence := 95 / 100 }
        else { value := .string c.mention.text, canonical := abbreviated c.mention.text, confidence := 9 / 10 } }
  else fillSlotValue U c.slot c.start c.mention world contextOverride

def isNullish : Value → Bool
  | .null => true
  | .undefined => true
  | _ => false

namespace Filling

variable (st : Filling)

def consume (indices : List ℕ) : Filling :=
  { st with usedTokens := st.usedTokens ++ indices, consumedAll := st.consumedAll ++ indices }

/-- An optional slot that stays empty leaves no trace. -/
def miss (fs : FrameSlot) : Filling :=
  if fs.required then
    { st with slotsRequired := st.slotsRequired + 1, requiredMissing := st.requiredMissing ++ [fs.role] }
  else st

def take (c : Claim) : Filling :=
  let f := c.fill U world contextOverride
  let st := st.consume f.consumed
  { st with
    slots := st.slots.set c.slot.role f.slot
    slotsRequired := st.slotsRequired + if c.slot.required then 1 else 0
    slotsFilled := st.slotsFilled + 1
    entityAmbiguous := st.entityAmbiguous || f.ambiguityFlagged
    contextUnresolved := st.contextUnresolved || (f.slot.contextRef = some .latestMessage && isNullish f.slot.value)
    gaps := st.gaps ++ f.gaps
    claims := st.claims ++ [c] }

def isFree (t : Token) : Bool := t.i ∉ st.consumedAll

def needsValue (fs : FrameSlot) (prep : Token) : Filling :=
  { st with
    gaps := st.gaps ++ [⟨.unresolvedSlot,
      ofText "slot " ++ doubleQuoted fs.role ++ ofText " needs a value after " ++ doubleQuoted prep.text, none⟩]
    bare := st.bare ++ [prep] }

end Filling

/-- The first pass at a slot: its preposition, and the mention behind it. -/
def routeSlot (st : Filling) (fs : FrameSlot) : Filling :=
  let body := bodyTokens tokens (verbTok + 1)
  if fs.preps = [] then st
  else
    match body.find? fun t => st.isFree t && isPrepToken t fs with
    | none => st
    | some prep =>
      let st := { st with usedTokens := st.usedTokens ++ [prep.i] }
      match body.find? fun t => decide (prep.i < t.i) && st.isFree t with
      | none => st.needsValue fs prep
      | some start =>
        let mention := mentionAfter tokens start.i
        if mention.text = [] ∧ mention.quote = none then st.needsValue fs prep
        else (st.consume mention.consumed).take U world contextOverride ⟨fs, start, mention, false⟩

def restText (t : Token) : JsString := if t.kind = .quote then t.quote.getD t.norm else t.text

def isContextStart (t : Token) : Bool := t.kind = .ref || (t.kind = .word && t.norm ∈ contentRefWords)

/-- A mention of these words, taken one by one. -/
def ofTokens (text : JsString) (ts : List Token) : Mention := ⟨text, none, ts.map Token.i, ts.map Token.i⟩

/-- The second pass at a slot that is not filled yet. -/
def placeSlot (st : Filling) (fs : FrameSlot) : Filling :=
  let body := bodyTokens tokens (verbTok + 1)
  if st.slots.has fs.role then st
  else if fs.kind = .enum then
    match body.find? fun t => st.isFree t && t.kind = .word && t.norm ∈ fs.enumValues with
    | some hit => (st.consume [hit.i]).take U world contextOverride ⟨fs, hit, ofTokens hit.norm [hit], true⟩
    | none => st.miss fs
  else if fs.kind = .rest then
    match body.filter st.isFree with
    | [] => st.miss fs
    | first :: more =>
      let rest := first :: more
      (st.consume (rest.map Token.i)).take U world contextOverride
        ⟨fs, first, ofTokens (joined (rest.map restText)) rest, true⟩
  else if fs.preps ≠ [] ∧ fs.patient = false then st.miss fs
  else
    match body.find? fun t => st.isFree t && !isBoundary t frame with
    | none => st.miss fs
    | some start =>
      if (fs.kind = .entity ∨ fs.kind = .content) ∧ isContextStart start then
        (st.consume [start.i]).take U world contextOverride ⟨fs, start, ofTokens start.norm [start], false⟩
      else st.take U world contextOverride ⟨fs, start, mentionAfter tokens start.i, false⟩

structure Candidate where
  ir : IR
  frame : OpFrame
  verbToken : ℕ
  verbCls : VerbMatchClass
  filling : Filling
  unknownWords : List JsString

def unknownTokens (usedTokens : List ℕ) : List Token :=
  (bodyTokens tokens (verbTok + 1)).filter fun t => t.i ∉ usedTokens && t.kind = .word && !isBoundary t frame

/-- The slots in the order of the frame, the ones with a preposition first. -/
def fillSlots : Filling :=
  let routed := frame.slots.foldl (routeSlot U tokens verbTok world contextOverride) { usedTokens := [verbTok] }
  frame.slots.foldl (placeSlot U frame tokens verbTok world contextOverride) routed

def fillFrame : Candidate :=
  let st := fillSlots U frame tokens verbTok world contextOverride
  { ir :=
      { intent := frame.op
        family := frame.family
        slots := st.slots
        payload := buildPayload frame st.slots world
        canonical := buildCanonical frame st.slots
        confidence := 0
        verbs := (tokens[verbTok]?.map Token.norm).toList }
    frame
    verbToken := verbTok
    verbCls := .exact
    filling := st
    unknownWords := (unknownTokens frame tokens verbTok st.usedTokens).map Token.norm }

end Filling

section Matching

variable (tokens : List Token) (world : WorldModel) (contextOverride : Option ContextRef)

structure TokenHits where
  tok : Token
  hits : List VerbHit

def TokenHits.rank (h : TokenHits) : ℕ := (h.hits.map fun x => x.cls.rank).foldl min 3

def tokenLe (a b : TokenHits) : Prop := a.rank < b.rank ∨ a.rank = b.rank ∧ a.tok.i ≤ b.tok.i

instance tokenLeDecidable (a b : TokenHits) : Decidable (tokenLe a b) := by
  unfold tokenLe
  infer_instance

def hitLe (a b : VerbHit) : Prop :=
  a.cls.rank < b.cls.rank ∨ a.cls.rank = b.cls.rank ∧ U.localeLe a.frame.op b.frame.op = true

instance hitLeDecidable (a b : VerbHit) : Decidable (hitLe U a b) := by
  unfold hitLe
  infer_instance

def namesFrame (norm : JsString) (f : OpFrame) : Bool :=
  norm ∈ f.verbs || (ofText "." ++ norm ++ ofText "@1").isSuffixOf f.op || f.op = norm

def commandCandidates : List Candidate :=
  (tokens.filter fun t => t.kind = .cmd).flatMap fun t =>
    ((framesForWorld U world).filter (namesFrame t.norm)).map fun frame =>
      fillFrame U frame tokens t.i world contextOverride

def tokenHits : List TokenHits :=
  (tokens.filter fun t => t.kind = .word && t.norm ∉ STOPWORDS && !isModifierWord t.norm).filterMap fun t =>
    let hits := verbHits U t.norm (framesForWorld U world) world
    if hits = [] then none else some ⟨t, hits⟩

def wordCandidates : List Candidate :=
  ((tokenHits U tokens world).insertionSort tokenLe).flatMap fun h =>
    (h.hits.insertionSort (hitLe U)).map fun hit =>
      { fillFrame U hit.frame tokens h.tok.i world contextOverride with verbCls := hit.cls }

def matchFrames : List Candidate :=
  (commandCandidates U tokens world contextOverride ++ wordCandidates U tokens world contextOverride).take 8

end Matching

end VivimOmega.Nlcl

import VivimOmega.Nlcl.Recognize

/-! The interpretation of an input: the recognizers in their order, then the frames, scored and sorted. -/

namespace VivimOmega.Nlcl

open Library Library.Json

section Interpretations

inductive InterpStatus
  | empty | ok | partly | ambiguous | unknown
  deriving DecidableEq

/-- The suggestion of kind symbol stands for itself; the other suggestions and the trace are for display only. -/
structure Interpretation where
  status : InterpStatus
  ir : Option IR
  alternatives : List IR
  canonical : Option JsString
  confidence : ℚ
  gaps : List GapNote
  symbolic : Option JsString

end Interpretations

section Modifiers

def modifierOf (m : Modifiers) (t : Token) : Modifiers :=
  if t.kind = .symbol then
    if t.norm = ofText "!" then { m with force := true }
    else if t.norm = ofText "^" then { m with priority := true }
    else if t.norm = ofText "~" then { m with fuzzy := true }
    else m
  else if t.kind = .word then
    match MODIFIER_WORDS.lookup t.norm with
    | some .force => { m with force := true }
    | some .priority => { m with priority := true }
    | _ => m
  else m

def modifiersOf (tokens : List Token) : Modifiers :=
  let m := tokens.foldl modifierOf {}
  if tokens.head?.any isQuerySymbol then { m with query := true } else m

end Modifiers

section Scores

def plus (a b : ℚ) : ℚ := double (a + b)

def times (a b : ℚ) : ℚ := double (a * b)

/-- A number of hundredths as it stands in the source. -/
def cents (n : ℤ) : ℚ := double (n / 100)

def verbScore : VerbMatchClass → ℚ
  | .exact => cents 45
  | .taught => cents 40
  | .fuzzy => cents 30

def matchWord : JsString := ofText "match"

def slotScore (s : ℚ) (slot : IRSlot) : ℚ :=
  let s :=
    if slot.entityId.any (· ≠ []) then plus s (times (min (double slot.confidence) 1) (cents 15))
    else
      match slot.contextRef with
      | some .triggerMessage => plus s (cents 12)
      | some .latestMessage => if isFalsy slot.value then plus s (-cents 15) else plus s (cents 10)
      | none => s
  if 1 < slot.found.length ∧ slot.note.any (includes · matchWord) then plus s (-cents 5) else s

def requiredScore (c : Candidate) : ℚ :=
  if 0 < c.filling.slotsRequired then
    times (times (cents 28) (double (c.filling.slotsFilled / c.filling.slotsRequired)))
      (if c.filling.slotsRequired ≤ c.filling.slotsFilled then 1 else cents 70)
  else if c.filling.requiredMissing = [] then cents 28 else 0

def candidateScore (c : Candidate) : ℚ :=
  let s := plus (verbScore c.verbCls) (requiredScore c)
  let s := plus s (min (times ((c.filling.slotsFilled - c.filling.slotsRequired : ℕ) : ℚ) (cents 2)) (cents 6))
  let s := c.ir.slots.values.foldl slotScore s
  let s := plus s (-min (times (c.unknownWords.length : ℚ) (cents 4)) (cents 12))
  let s := plus s (-times (c.filling.requiredMissing.length : ℚ) (cents 18))
  max 0 (min (cents 99) (round2 s))

def scoreCandidate (c : Candidate) : Candidate := { c with ir := { c.ir with confidence := candidateScore c } }

end Scores

section Assembly

def isSymbolic (t : Token) : Bool :=
  t.kind = .symbol || t.kind = .ref || t.kind = .cmd || t.kind = .arrow || t.kind = .tag

def rulePrefix : JsString := ofText "/rule"

/-- The symbolic form that an input in plain words is shown, as the same command. -/
def symbolicForm (tokens : List Token) (ir : IR) : Option JsString :=
  if !tokens.any isSymbolic ∧ ir.intent ≠ ofText "surface.help" ∧ ir.canonical ≠ [] ∧ ir.canonical ≠ ofText "?" ∧
      !rulePrefix.isPrefixOf ir.canonical then
    some ir.canonical
  else none

def assemble (tokens : List Token) (ir : IR) (gaps : List GapNote) (alternatives : List IR) : Interpretation where
  status := .ok
  ir := some ir
  alternatives := alternatives
  canonical := some ir.canonical
  confidence := ir.confidence
  gaps := gaps
  symbolic := symbolicForm tokens ir

def emptyInterp : Interpretation := ⟨.empty, none, [], none, 0, [], none⟩

def unknownInterp (tokens : List Token) : Interpretation :=
  let first := ((tokens.find? fun t => t.kind = .word && t.norm ∉ STOPWORDS).map Token.norm).getD []
  { emptyInterp with
    status := .unknown
    gaps :=
      [if first = [] then
        ⟨.unknownWord, ofText "no command verb found", some (ofText "try: send this to Peter")⟩
      else
        ⟨.unknownWord, doubleQuoted first ++ ofText " is not a command",
          some (ofText "pick a suggestion, or teach it a meaning")⟩] }

end Assembly

variable (U : Engine)

section Frames

def candidateLe (a b : Candidate) : Prop :=
  b.ir.confidence < a.ir.confidence ∨
    a.ir.confidence = b.ir.confidence ∧ U.localeLe a.ir.intent b.ir.intent = true

instance candidateLeDecidable (a b : Candidate) : Decidable (candidateLe U a b) := by
  unfold candidateLe
  infer_instance

def rankedCandidates (tokens : List Token) (world : WorldModel) : List Candidate :=
  ((matchFrames U tokens world none).map scoreCandidate).insertionSort (candidateLe U)

def isTie (primary c : Candidate) : Bool :=
  |double (c.ir.confidence - primary.ir.confidence)| < cents 5 && c.ir.intent ≠ primary.ir.intent

def slotHint (fs : FrameSlot) : JsString :=
  if fs.kind = .entity then ofText "try @name (" ++ typesText fs.entityTypes ++ ofText ")"
  else if fs.kind = .enum then ofText "one of: " ++ (ofText ", ").intercalate fs.enumValues
  else
    match fs.preps with
    | prep :: _ => ofText "after " ++ doubleQuoted prep
    | [] => ofText "add the missing value"

def missingGap (c : Candidate) (role : JsString) : GapNote :=
  ⟨.unresolvedSlot, ofText "slot " ++ doubleQuoted role ++ ofText " is still empty",
    (c.frame.slots.find? fun s => s.role = role).map slotHint⟩

def frameStatus (primary : Candidate) (ties : List Candidate) : InterpStatus :=
  if primary.filling.entityAmbiguous ∨ ties ≠ [] then .ambiguous
  else if cents 70 ≤ primary.ir.confidence ∧ primary.filling.requiredMissing = [] ∧ primary.filling.contextUnresolved = false then .ok
  else .partly

def resolved (tokens : List Token) (primary : Candidate) (rest : List Candidate) : Interpretation :=
  let ties := rest.filter (isTie primary)
  let modified (ir : IR) : IR := { ir with modifiers := modifiersOf tokens }
  { assemble tokens (modified primary.ir) (primary.filling.gaps ++ primary.filling.requiredMissing.map (missingGap primary))
      (ties.map fun c => modified c.ir) with
    status := frameStatus primary ties }

end Frames

section Interpret

def recognizers (folded : JsString) (tokens : List Token) (world : WorldModel) : List (Option Recognized) :=
  [recognizeHelp U folded tokens world, recognizeInbox folded, recognizeTeach U folded world, recognizeRule U folded world,
    recognizeReceive U folded world]

open Regex Pattern in
def asksForEntity (folded : JsString) : Bool :=
  (seqs [choice ["who", "what"], blanks, lit "is", blanks]).test folded ||
    (seqs [lit "tell me about", blanks]).test folded

/-- The recognizer that takes the input, if one does. -/
def recognized (input : JsString) (tokens : List Token) (world : WorldModel) : Option Recognized :=
  let folded := fold U.toUnicode input
  match (recognizers U folded tokens world).findSome? id with
  | some rec => some rec
  | none => if asksForEntity folded then recognizeEntityQuery U input world else none

def interpret (input : JsString) (world : WorldModel) : Interpretation :=
  if trim input = [] then emptyInterp
  else
    let tokens := (lex U.toUnicode input).tokens
    match recognized U input tokens world with
    | some rec => assemble tokens { rec.ir with modifiers := modifiersOf tokens } rec.gaps []
    | none =>
      match rankedCandidates U tokens world with
      | [] => unknownInterp tokens
      | primary :: rest => resolved tokens primary rest

end Interpret

end VivimOmega.Nlcl

import VivimOmega.Nlcl.Text

/-! The symbol families of the command language and its scanner. -/

namespace VivimOmega.Nlcl

open Library.Json

section Families

inductive Family
  | command | reference | tag | force | query | add | remove | combine | value | wildcard | config | delta | confirm
  | assert | priority | approximate | direction
  deriving DecidableEq

def unitOf (c : Char) : UInt16 := UInt16.ofNat c.toNat

/-- The glyph of the arrow is no glyph of the scanner's set. -/
def normalizeFamilyGlyph (u : UInt16) : Option Family :=
  if u = unitOf '#' then some .tag else if u = unitOf '!' then some .force else if u = unitOf '?' then some .query
  else if u = unitOf '+' then some .add else if u = unitOf '-' then some .remove
  else if u = unitOf '&' then some .combine else if u = unitOf '$' then some .value
  else if u = unitOf '*' then some .wildcard else if u = unitOf '%' then some .config
  else if u = unitOf '^' then some .priority else if u = unitOf '~' then some .approximate
  else if u = unitOf '=' then some .assert else if u = unitOf '@' then some .reference
  else if u = unitOf '/' then some .command else if u = 0x2206 ∨ u = 0x0394 then some .delta
  else if u = 0x2713 ∨ u = 0x2714 then some .confirm else none

/-- What every object inherits, so that a lookup of these names finds something. -/
def objectPrototype : List JsString :=
  ["constructor", "toString", "valueOf", "hasOwnProperty", "isPrototypeOf", "propertyIsEnumerable", "toLocaleString",
    "__proto__", "__defineGetter__", "__defineSetter__", "__lookupGetter__", "__lookupSetter__"].map ofText

def MODIFIER_WORDS : List (JsString × Family) :=
  [(ofText "now", .force), (ofText "immediately", .force), (ofText "just do it", .force), (ofText "urgent", .priority),
    (ofText "asap", .priority), (ofText "important", .priority), (ofText "first", .priority)]

def isModifierWord (norm : JsString) : Bool := norm ∈ MODIFIER_WORDS.map Prod.fst || norm ∈ objectPrototype

def STOPWORDS : List JsString := ["please", "the", "a", "an", "my"].map ofText

end Families

section Tokens

inductive TokKind
  | word | symbol | quote | arrow | number | punct | ref | cmd | tag | var
  deriving DecidableEq

structure Token where
  i : ℕ
  text : JsString
  norm : JsString
  kind : TokKind
  family : Option Family
  quote : Option JsString
  start : ℕ
  stop : ℕ
  deriving DecidableEq

end Tokens

section Scanner

def isDigit (u : UInt16) : Bool := 48 ≤ u && u ≤ 57

def isLetter (u : UInt16) : Bool := (65 ≤ u && u ≤ 90) || (97 ≤ u && u ≤ 122)

/-- `/\w/` -/
def isWordUnit (u : UInt16) : Bool := isLetter u || isDigit u || u = unitOf '_'

def otherLetters : List UInt16 := (ofText
  "āăąćčďēĕėęěğġĥĩīĭįłńōŏőŕŗśŝşţũūŭůűźżž古希腊日本한국")

def isTrailing (u : UInt16) : Bool := u = unitOf '.' || u = unitOf '_' || u = unitOf '\'' || u = unitOf '-'

def WORD_CHARS (u : UInt16) : Bool :=
  isLetter u || isDigit u || (0xC0 ≤ u && u ≤ 0xFF) || otherLetters.contains u || (0x410 ≤ u && u ≤ 0x44F) || isTrailing u

def closeQuote (u : UInt16) : Option UInt16 :=
  if u = unitOf '\'' then some (unitOf '\'') else if u = unitOf '"' then some (unitOf '"')
  else if u = 0x201C then some 0x201D else if u = 0x2018 then some 0x2019 else if u = 0xAB then some 0xBB else none

/-- A straight quote delimits only where no word goes on before it nor after the next one. -/
def isQuoteOpenerHere (prev : Option UInt16) (u : UInt16) (rest : JsString) : Bool :=
  (closeQuote u).isSome &&
    if u = unitOf '\'' ∨ u = unitOf '"' then
      !prev.any isWordUnit && rest.contains u && !((rest.dropWhile (· ≠ u)).tail.head?.any isWordUnit)
    else true

def attachKind (u : UInt16) : Option TokKind :=
  if u = unitOf '@' then some .ref else if u = unitOf '/' then some .cmd else if u = unitOf '#' then some .tag
  else if u = unitOf '$' then some .var else none

def isWordStart (rest : JsString) : Bool := rest.head?.any fun u => WORD_CHARS u && !isDigit u

def isSkipped (u : UInt16) : Bool := u = 32 || u = 9 || u = 10 || u = 13

variable (U : Unicode)

/-- A token that does not know yet where in the input it stands. -/
def draft (text norm : JsString) (kind : TokKind) (family : Option Family) (quote : Option JsString) (start : ℕ) : Token :=
  ⟨0, text, norm, kind, family, quote, start, start + text.length⟩

def puncts (start : ℕ) : JsString → List Token
  | [] => []
  | u :: rest => draft [u] [u] .punct none none start :: puncts (start + 1) rest

def arrowNorm : JsString := [0x2192]

/-- The tokens that begin at a place of the input, and how many units they take. -/
def scan (prev : Option UInt16) (pos : ℕ) (u : UInt16) (rest : JsString) : List Token × ℕ :=
  if isSkipped u then ([], 1)
  else if (u = unitOf '-' ∨ u = unitOf '=') ∧ rest.head? = some (unitOf '>') then
    ([draft [u, unitOf '>'] arrowNorm .arrow (some .direction) none pos], 2)
  else if u = 0x2192 ∨ u = unitOf '>' then ([draft [u] arrowNorm .arrow (some .direction) none pos], 1)
  else if isQuoteOpenerHere prev u rest then
    let close := (closeQuote u).getD u
    let inner := rest.takeWhile (· ≠ close)
    let closed := (rest.drop inner.length).take 1
    ([draft (u :: inner ++ closed) (fold U inner) .quote none (some inner) pos], 1 + inner.length + closed.length)
  else
    match normalizeFamilyGlyph u with
    | some family =>
      match attachKind u with
      | some kind =>
        if isWordStart rest then
          let word := rest.takeWhile WORD_CHARS
          ([draft (u :: word) (fold U word) kind (some family) none pos], 1 + word.length)
        else ([draft [u] [u] .symbol (some family) none pos], 1)
      | none => ([draft [u] [u] .symbol (some family) none pos], 1)
    | none =>
      if isDigit u then
        let number := u :: rest.takeWhile isDigit
        ([draft number number .number none none pos], number.length)
      else if WORD_CHARS u then
        let run := rest.takeWhile WORD_CHARS
        let kept := u :: run.rdropWhile isTrailing
        (draft kept (fold U kept) .word none none pos :: puncts (pos + kept.length) (run.drop (kept.length - 1)),
          1 + run.length)
      else ([draft [u] [u] .punct none none pos], 1)

/-- Every step takes a unit, so that the input's length is enough. -/
def scanAll : ℕ → Option UInt16 → ℕ → JsString → List Token
  | 0, _, _, _ => []
  | _, _, _, [] => []
  | n + 1, prev, pos, u :: rest =>
    let (tokens, taken) := scan U prev pos u rest
    tokens ++ scanAll n ((u :: rest)[taken - 1]?) (pos + taken) ((u :: rest).drop taken)

def numbered (tokens : List Token) : List Token := tokens.mapIdx fun i t => { t with i }

def isStraight (u : UInt16) : Bool := u = unitOf '\'' || u = unitOf '"'

structure Lexed where
  tokens : List Token
  syntaxNotes : List JsString

def lex (input : JsString) : Lexed :=
  let tokens := numbered (scanAll U input.length none 0 input)
  let strays := input.countP isStraight
  ⟨tokens, if (tokens.countP fun t => t.kind = .quote) * 2 < strays ∧ tokens ≠ [] then
    [ofText "stray quote marks treated as word characters"] else []⟩

end Scanner

end VivimOmega.Nlcl

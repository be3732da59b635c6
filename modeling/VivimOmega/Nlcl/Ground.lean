import VivimOmega.Library.Json.Stringify
import VivimOmega.Nlcl.Text

/-! The world that the command language commands, and the grounding of a mention in it. -/

namespace VivimOmega.Nlcl

open Library.Json

/-- What the language takes from the engine: Unicode, and the order of `localeCompare`. -/
structure Engine extends Unicode where
  localeLe : JsString → JsString → Bool
  localeLe_total : ∀ a b, localeLe a b = true ∨ localeLe b a = true
  localeLe_trans : ∀ a b c, localeLe a b = true → localeLe b c = true → localeLe a c = true

/-- The tables on texts of ASCII, and the order of the code units. -/
def plainEngine : Engine where
  toUnicode := ascii
  localeLe a b := decide (a.map UInt16.toNat ≤ b.map UInt16.toNat)
  localeLe_total a b := by
    simp only [decide_eq_true_eq]
    exact le_total _ _
  localeLe_trans a b c hab hbc := decide_eq_true ((of_decide_eq_true hab).trans (of_decide_eq_true hbc))

section World

structure EntityView where
  id : JsString
  type : JsString
  label : JsString
  names : List JsString
  data : List (JsString × Value)

structure LexiconEntry where
  word : JsString
  op : JsString

structure WorldModel where
  ops : List JsString
  entities : List EntityView
  lexicon : List LexiconEntry
  latestMessageId : Option JsString
  latestEntityId : Option JsString

def emptyWorld : WorldModel := ⟨[], [], [], none, none⟩

def EntityView.field (e : EntityView) (name : String) : Value := optionalProperty (.object e.data) name

def EntityView.textField (e : EntityView) (name : String) : Option JsString :=
  match e.field name with
  | .string s => some s
  | _ => none

end World

section Distance

/-- The cells of a row right of its first one. -/
def levCells (c : UInt16) : ℕ → ℕ → List ℕ → JsString → List ℕ
  | diag, left, up :: ups, v :: vs =>
    let cell := min (min (up + 1) (left + 1)) (diag + if c = v then 0 else 1)
    cell :: levCells c up cell ups vs
  | _, _, _, _ => []

def levRow (c : UInt16) (i : ℕ) (b : JsString) (prev : List ℕ) : List ℕ :=
  i :: levCells c (prev.headD 0) i prev.tail b

/-- The rows, until one has no cell within the cap. -/
def levRows (cap : ℕ) (b : JsString) : ℕ → List ℕ → JsString → ℕ
  | _, prev, [] => prev.getLastD 0
  | i, prev, c :: rest =>
    let cur := levRow c i b prev
    if cap < cur.foldl min i then cap + 1 else levRows cap b (i + 1) cur rest

def lev (a b : JsString) (cap : ℕ) : ℕ :=
  if cap < a.length - b.length + (b.length - a.length) then cap + 1
  else if a = [] then b.length
  else if b = [] then a.length
  else levRows cap b 1 (List.range (b.length + 1)) a

end Distance

variable (U : Engine)

section Phrases

def parts (isSeparator : UInt16 → Bool) (s : JsString) : List JsString := (s.splitOnP isSeparator).filter (· ≠ [])

def words (s : JsString) : List JsString :=
  parts (fun u => isSpace u || u = 44 || u = 59) (fold U.toUnicode s)

def nameParts (s : JsString) : List JsString := parts (fun u => isSpace u || isSeparator u) s

def joined (ws : List JsString) : JsString := [32].intercalate ws

def includes (s t : JsString) : Bool := decide (t <:+: s)

end Phrases

section Grounding

def bestScoreForAlias (name other : JsString) : ℚ :=
  let n := fold U.toUnicode name
  let a := fold U.toUnicode other
  let nw := nameParts n
  let aw := nameParts a
  if n = [] ∨ a = [] then 0
  else if n = a then 1
  else if 1 < nw.length ∧ 1 < aw.length ∧ joined nw = joined aw then 98 / 100
  else if nw.length = 1 ∧ n ∈ aw ∧ 3 ≤ n.length then 90 / 100
  else if nw.length = 1 ∧ 3 ≤ n.length ∧ n.isPrefixOf a then 82 / 100
  else if 5 ≤ n.length ∧ lev n a 2 ≤ 1 then 72 / 100
  else if 7 ≤ n.length ∧ lev n a 2 ≤ 2 then 58 / 100
  else if 4 ≤ n.length ∧ includes a n then 60 / 100
  else if 4 ≤ a.length ∧ includes n a then 55 / 100
  else 0

structure EntityMatch where
  entity : EntityView
  score : ℚ

structure GroundResult where
  found : List EntityMatch

def GroundResult.primary (g : GroundResult) : Option EntityMatch := g.found.head?

/-- The two best share the top score. -/
def GroundResult.ambiguous (g : GroundResult) : Bool :=
  match g.found with
  | first :: second :: _ => decide (|second.score - first.score| < 1 / 100)
  | _ => false

def ofTypes (typeFilter : Option (List JsString)) (e : EntityView) : Bool := typeFilter.all fun types => e.type ∈ types

def matchLe (a b : EntityMatch) : Prop :=
  b.score < a.score ∨ a.score = b.score ∧ U.localeLe a.entity.id b.entity.id = true

instance matchLeDecidable (a b : EntityMatch) : Decidable (matchLe U a b) := by
  unfold matchLe
  infer_instance

def ground (name : JsString) (entities : List EntityView) (typeFilter : Option (List JsString)) : GroundResult :=
  let scored := (entities.filter (ofTypes typeFilter)).map fun e =>
    EntityMatch.mk e ((e.names.map (bestScoreForAlias U name)).foldl max 0)
  ⟨((scored.filter fun m => 55 / 100 ≤ m.score).insertionSort (matchLe U)).take 8⟩

/-- The phrase itself, and where nothing matches it, its last word. -/
def groundPhrase (phrase : JsString) (entities : List EntityView) (typeFilter : Option (List JsString)) : GroundResult :=
  let direct := ground U phrase entities typeFilter
  if direct.found ≠ [] ∨ (trim phrase).any isSpace = false then direct
  else
    match (words U phrase).getLast? with
    | some last =>
      let byLast := ground U last entities typeFilter
      if 2 ≤ (words U phrase).length ∧ byLast.found ≠ [] then byLast else direct
    | none => direct

def CONTEXT_WORDS : List JsString :=
  ["this", "that", "it", "them", "they", "latest", "last", "newest", "current"].map ofText

def resolveContext (word : JsString) (world : WorldModel) (typeFilter : Option (List JsString)) : Option EntityView :=
  if fold U.toUnicode word ∈ CONTEXT_WORDS then
    let wantId := if typeFilter.all (ofText "message" ∈ ·) then world.latestMessageId else world.latestEntityId
    match wantId with
    | some id => if id = [] then none else world.entities.find? fun e => e.id = id
    | none => none
  else none

def colon : UInt16 := 58

def afterColon (id : JsString) : JsString := if colon ∈ id then (id.dropWhile (· ≠ colon)).tail else id

def entitySymbol (e : EntityView) : JsString := ofText "@" ++ afterColon e.id

def secondPart (id : JsString) : JsString := (id.splitOn colon)[1]?.getD id

/-- `v ?? w` -/
def orElse (v w : Value) : Value :=
  match v with
  | .null => w
  | .undefined => w
  | v => v

def entityPayloadValue (e : EntityView) : Value :=
  if e.type = ofText "contact" then orElse (e.field "address") (.string e.label)
  else if e.type = ofText "message" then orElse (e.field "id") (.string (secondPart e.id))
  else if e.type = ofText "rule" then .string (secondPart e.id)
  else orElse (e.field "id") (.string e.id)

end Grounding

end VivimOmega.Nlcl

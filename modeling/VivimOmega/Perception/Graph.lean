import VivimOmega.Nlcl.Text

/-! The perceived graph of a captured page: which nodes of the tree become nodes of the graph, and under which names. -/

namespace VivimOmega.Perception

open Library Library.Json Nlcl

section Model

structure DomNode where
  tag : JsString
  id : Option JsString
  role : Option JsString
  ariaLabel : Option JsString
  text : Option JsString
  placeholder : Option JsString
  children : List DomNode

structure PageCapture where
  fixture : JsString
  capturedAt : ℤ
  root : DomNode

inductive NodeKind
  | control | field | button | list | container | menu | menuItem
  deriving DecidableEq

structure Span where
  start : ℕ
  stop : ℕ
  deriving DecidableEq

structure EvidenceRef where
  ns : JsString
  id : JsString
  rev : ℕ
  casRef : JsString
  span : Option Span
  deriving DecidableEq

structure GraphNode where
  id : JsString
  kind : NodeKind
  label : JsString
  selectorHint : JsString
  evidence : List EvidenceRef
  deriving DecidableEq

inductive EdgeTrigger
  | click | type | network
  deriving DecidableEq

structure CausalEdge where
  id : JsString
  source : JsString
  target : JsString
  trigger : EdgeTrigger
  latencyMs : ℚ
  evidence : List EvidenceRef
  deriving DecidableEq

structure ApplicationGraph where
  id : JsString
  capturedAt : ℤ
  fixtureName : JsString
  nodes : List GraphNode
  edges : List CausalEdge

end Model

section Classification

def INTERACTIVE_ROLES : List JsString :=
  ["link", "tab", "checkbox", "radio", "switch", "option", "combobox", "slider", "treeitem"].map ofText

/-- The kind that a role names by itself. -/
def roleKind (role : JsString) : Option NodeKind :=
  if role = ofText "button" then some .button
  else if role = ofText "list" then some .list
  else if role = ofText "textbox" ∨ role = ofText "searchbox" then some .field
  else if role = ofText "menu" then some .menu
  else if role = ofText "menuitem" ∨ role = ofText "menuitemcheckbox" ∨ role = ofText "menuitemradio" then some .menuItem
  else none

def tagKind (tag : JsString) : Option NodeKind :=
  if tag = ofText "button" then some .button
  else if tag = ofText "input" ∨ tag = ofText "textarea" then some .field
  else if tag = ofText "ul" ∨ tag = ofText "ol" then some .list
  else if tag = ofText "a" ∨ tag = ofText "select" ∨ tag = ofText "option" then some .control
  else if tag = ofText "menu" then some .menu
  else none

/-- A leaf that is not interactive is no node of the graph. -/
def classifyKind (n : DomNode) : Option NodeKind :=
  match n.role.bind roleKind with
  | some kind => some kind
  | none =>
    match tagKind n.tag with
    | some kind => some kind
    | none =>
      if n.role.any (· ∈ INTERACTIVE_ROLES) then some .control
      else if n.children = [] then none else some .container

def collapsed (s : Option JsString) : JsString := trim (collapse (s.getD []))

def cap60 (s : JsString) : JsString := if 60 < s.length then s.take 57 ++ ofText "..." else s

mutual

/-- The first text at the node or below it. -/
def nodeText : DomNode → Option JsString
  | ⟨_, _, _, _, text, _, children⟩ =>
    if collapsed text ≠ [] then some (collapsed text) else firstDescendantText children

def firstDescendantText : List DomNode → Option JsString
  | [] => none
  | c :: rest => (nodeText c).or (firstDescendantText rest)

end

def labelFor (n : DomNode) : JsString :=
  if collapsed n.ariaLabel ≠ [] then cap60 (collapsed n.ariaLabel)
  else if collapsed n.text ≠ [] then cap60 (collapsed n.text)
  else if collapsed n.placeholder ≠ [] then cap60 (collapsed n.placeholder)
  else match firstDescendantText n.children with
    | some text => cap60 text
    | none =>
      match n.id.filter (· ≠ []), n.role.filter (· ≠ []) with
      | some id, _ => id
      | none, some role => n.tag ++ ofText ":" ++ role
      | none, none => n.tag

end Classification

section Walk

def hash : UInt16 := 35

def dot : UInt16 := 46

def natText (n : ℕ) : JsString := ofText (Nat.repr n)

def nthOfType : JsString := ofText ":nth-of-type("

def closing : JsString := ofText ")"

def arrow : JsString := ofText " > "

/-- What an id that is there and not empty is selected by. -/
def DomNode.idHint (n : DomNode) : Option JsString := (n.id.filter (· ≠ [])).map (hash :: ·)

def segmentFor (n : DomNode) (sameTagIndex : ℕ) : JsString :=
  n.idHint.getD (n.tag ++ nthOfType ++ natText sameTagIndex ++ closing)

def pathId (path : List ℕ) : JsString := ofText "n" ++ [dot].intercalate (path.map natText)

variable (evidence : List EvidenceRef)

/-- The node of the graph that a node of the tree becomes, at a path and behind a chain of segments. -/
def emit (n : DomNode) (segment : JsString) (path : List ℕ) (chain : List JsString) : Option GraphNode :=
  (classifyKind n).map fun kind =>
    { id := pathId path
      kind
      label := labelFor n
      selectorHint := n.idHint.getD (arrow.intercalate (chain ++ [segment]))
      evidence }

mutual

def visit (sameTagIndex : ℕ) (path : List ℕ) (chain : List JsString) : DomNode → List GraphNode
  | ⟨tag, id, role, ariaLabel, text, placeholder, children⟩ =>
    let node : DomNode := ⟨tag, id, role, ariaLabel, text, placeholder, children⟩
    let segment := segmentFor node sameTagIndex
    (emit evidence node segment path chain).toList ++ visitAll [] path (chain ++ [segment]) children

/-- The children from one on, behind siblings with these tags. -/
def visitAll (before : List JsString) (path : List ℕ) (chain : List JsString) : List DomNode → List GraphNode
  | [] => []
  | child :: rest =>
    visit (before.count child.tag + 1) (path ++ [before.length]) chain child ++
      visitAll (before ++ [child.tag]) path chain rest

end

def walkDom (root : DomNode) : List GraphNode := visit evidence 1 [0] [] root

def buildGraph (page : PageCapture) : ApplicationGraph where
  id := ofText "graph:" ++ page.fixture
  capturedAt := page.capturedAt
  fixtureName := page.fixture
  nodes := walkDom evidence page.root
  edges := []

end Walk

end VivimOmega.Perception

import VivimOmega.Library.Double
import VivimOmega.Nlcl.Text

/-! Candidate contracts of a perceived graph: the op, the risk and the confidence that a label suggests. -/

namespace VivimOmega.Inference

open Library Library.Json
open Nlcl (Unicode ascii trim isSpace)

section Model

inductive ActionType
  | click | type | read
  deriving DecidableEq

inductive RiskHint
  | externalMutation | mutation | read
  deriving DecidableEq

inductive CandidateStatus
  | draft | promoted | rejected
  deriving DecidableEq

def RiskHint.severity : RiskHint → ℕ
  | .read => 0
  | .mutation => 1
  | .externalMutation => 2

structure EvidenceRef where
  ns : JsString
  id : JsString
  rev : ℕ
  deriving DecidableEq

structure GraphNode where
  id : JsString
  kind : JsString
  label : JsString
  selectorHint : JsString
  evidence : List EvidenceRef

/-- The nodes of a graph; its edges are no input of the inference. -/
structure ApplicationGraph where
  nodes : List GraphNode

structure SurfaceContract where
  id : JsString
  nodeId : JsString
  op : JsString
  selector : JsString
  actionType : ActionType
  riskHint : RiskHint
  evidence : List EvidenceRef
  status : CandidateStatus
  confidence : ℚ
  deriving DecidableEq

end Model

section Tables

structure ActionWord where
  word : JsString
  op : JsString
  risk : RiskHint
  deriving DecidableEq

def actionWord (word op : String) (risk : RiskHint) : ActionWord := ⟨ofText word, ofText op, risk⟩

def BUTTON_ACTION_WORDS : List ActionWord := [
  actionWord "send" "message.send" .externalMutation,
  actionWord "delete" "message.delete" .externalMutation,
  actionWord "trash" "message.delete" .externalMutation,
  actionWord "reply" "message.reply" .externalMutation,
  actionWord "compose" "message.compose" .mutation,
  actionWord "search" "message.search" .read,
  actionWord "move" "message.move" .mutation,
  actionWord "archive" "message.move" .mutation,
  actionWord "open" "message.read" .read,
  actionWord "read" "message.read" .read,
  actionWord "view" "message.read" .read,
  actionWord "receive" "message.receive" .read,
  actionWord "refresh" "message.receive" .read,
  actionWord "sync" "message.receive" .read]

def FIELD_WORDS : List ActionWord := [
  actionWord "search" "message.field.search" .read,
  actionWord "subject" "message.field.subject" .mutation,
  actionWord "to" "message.field.to" .mutation,
  actionWord "body" "message.field.body" .mutation,
  actionWord "from" "message.field.from" .mutation,
  actionWord "cc" "message.field.cc" .mutation,
  actionWord "bcc" "message.field.bcc" .mutation]

def LIST_STRONG : JsString := ofText "list"

def LIST_PARTIAL : List JsString := ["inbox", "messages", "threads", "mail"].map ofText

def CONFIDENCE_EXACT : ℚ := double (9 / 10)

def CONFIDENCE_PARTIAL : ℚ := double (6 / 10)

def CONFIDENCE_GENERIC : ℚ := double (4 / 10)

end Tables

section Labels

variable (U : Unicode)

def dot : UInt16 := 46

/-- What `[a-z0-9@.]` matches. -/
def isWordUnit (u : UInt16) : Bool := (97 ≤ u && u ≤ 122) || (48 ≤ u && u ≤ 57) || u = 64 || u = dot

def normalizeLabel (label : JsString) : JsString := U.toLowerCase (trim label)

def words (label : JsString) : List JsString :=
  ((normalizeLabel U label).splitOnP fun u => !isWordUnit u).filter (· ≠ [])

/-- Every run of such units becomes one dot. -/
def dotted (p : UInt16 → Bool) : JsString → JsString
  | [] => []
  | u :: rest => if p u then if rest.head?.any p then dotted p rest else dot :: dotted p rest else u :: dotted p rest

def slug (label : JsString) : JsString :=
  let s := dotted (· = dot) (dotted (fun u => !isWordUnit u) (normalizeLabel U label))
  let s := if s.head? = some dot then s.tail else s
  if s.getLast? = some dot then s.dropLast else s

structure WordMatch where
  op : JsString
  risk : RiskHint
  confidence : ℚ
  deriving DecidableEq

def riskForDirectOp (op : JsString) : RiskHint :=
  let tail := (op.splitOn dot).getLast?.getD []
  if tail ∈ ["send", "delete", "trash", "reply", "forward"].map ofText then .externalMutation
  else if tail ∈ ["search", "read", "view", "open", "list"].map ofText then .read
  else .mutation

/-- The first word of the table that is a token of the label, or else the first that is inside it. -/
def matchWord (table : List ActionWord) (label : JsString) : Option WordMatch :=
  match table.find? fun a => a.word ∈ words U label with
  | some a => some ⟨a.op, a.risk, CONFIDENCE_EXACT⟩
  | none => (table.find? fun a => a.word <:+: normalizeLabel U label).map fun a => ⟨a.op, a.risk, CONFIDENCE_PARTIAL⟩

/-- The one dotted op that a label is, if it is one. -/
def directOp (label : JsString) : Option JsString :=
  match words U label with
  | [token] => if dot ∈ token then some token else none
  | _ => none

def matchButton (label : JsString) : Option WordMatch :=
  match directOp U label with
  | some op => some ⟨op, riskForDirectOp op, CONFIDENCE_EXACT⟩
  | none => matchWord U BUTTON_ACTION_WORDS label

def matchField (label : JsString) : Option WordMatch := matchWord U FIELD_WORDS label

def matchList (label : JsString) : WordMatch :=
  let op := ofText "message.list"
  if LIST_STRONG ∈ words U label then ⟨op, .read, CONFIDENCE_EXACT⟩
  else if LIST_PARTIAL.any fun w => w ∈ words U label ∨ w <:+: normalizeLabel U label then ⟨op, .read, CONFIDENCE_PARTIAL⟩
  else ⟨op, .read, CONFIDENCE_GENERIC⟩

end Labels

section Inference

variable (U : Unicode)

/-- What the kind of a node lets its label suggest, if the kind carries any signal. -/
def matchKind (node : GraphNode) : Option (Option WordMatch × ActionType) :=
  if node.kind = ofText "button" then some (matchButton U node.label, .click)
  else if node.kind = ofText "field" ∨ node.kind = ofText "input" ∨ node.kind = ofText "textarea" then
    some (matchField U node.label, .type)
  else if node.kind = ofText "list" then some (some (matchList U node.label), .read)
  else none

/-- A label without a domain word is an op of its own, of the strictest risk of its kind. -/
def genericMatch (actionType : ActionType) (label : JsString) : Option WordMatch :=
  if slug U label = [] then none
  else if actionType = .type then some ⟨ofText "message.field." ++ slug U label, .mutation, CONFIDENCE_GENERIC⟩
  else some ⟨ofText "message." ++ slug U label, .externalMutation, CONFIDENCE_GENERIC⟩

def inferMatch (node : GraphNode) : Option (WordMatch × ActionType) :=
  if node.evidence = [] then none
  else (matchKind U node).bind fun (found, actionType) =>
    ((found.or (genericMatch U actionType node.label)).filter fun m => dot ∈ m.op).map fun m => (m, actionType)

def candidateId (seq : ℕ) : JsString := ofText ("sc-" ++ Nat.repr seq)

def candidate (node : GraphNode) (seq : ℕ) (found : WordMatch × ActionType) : SurfaceContract where
  id := candidateId seq
  nodeId := node.id
  op := found.1.op
  selector := node.selectorHint
  actionType := found.2
  riskHint := found.1.risk
  evidence := node.evidence
  status := .draft
  confidence := round2 found.1.confidence

/-- The candidates of the nodes from one on, when so many have been numbered. -/
def inferFrom (seq : ℕ) : List GraphNode → List SurfaceContract
  | [] => []
  | node :: rest =>
    match inferMatch U node with
    | none => inferFrom seq rest
    | some found => candidate node (seq + 1) found :: inferFrom (seq + 1) rest

def inferCandidates (graph : ApplicationGraph) : List SurfaceContract := inferFrom U 0 graph.nodes

end Inference

end VivimOmega.Inference

import Mathlib

/-! The wire between compartments: structured-clone values, results and refusals. -/

namespace VivimOmega.Contracts

inductive JsValue
  | undefined
  | null
  | bool (b : Bool)
  | num (q : ℚ)
  | str (s : String)
  | arr (items : List JsValue)
  | obj (fields : List (String × JsValue))

namespace JsValue

def field (fields : List (String × JsValue)) (name : String) : JsValue :=
  ((fields.find? (fun f => f.1 = name)).map Prod.snd).getD undefined

/-- Reading a property: `none` is the TypeError that `undefined` and `null` raise. -/
def prop? : JsValue → String → Option JsValue
  | undefined, _ => none
  | null, _ => none
  | obj fields, name => some (field fields name)
  | _, _ => some undefined

def truthy : JsValue → Bool
  | undefined => false
  | null => false
  | bool b => b
  | num q => q ≠ 0
  | str s => s ≠ ""
  | arr _ => true
  | obj _ => true

def string? : JsValue → Option String
  | str s => some s
  | _ => none

def isUndefined : JsValue → Bool
  | undefined => true
  | _ => false

def isNullish : JsValue → Bool
  | undefined => true
  | null => true
  | _ => false

mutual

/-- The text of a value in a template literal, where an array joins its items with commas. -/
def text : JsValue → String
  | undefined => "undefined"
  | null => "null"
  | bool b => if b then "true" else "false"
  | num q => if q.den = 1 then q.num.repr else q.num.repr ++ "/" ++ q.den.repr
  | str s => s
  | arr items => ",".intercalate (itemTexts items)
  | obj _ => "[object Object]"

def itemTexts : List JsValue → List String
  | [] => []
  | v :: rest => (if v.isNullish then "" else v.text) :: itemTexts rest

end

/-- The text of `v ?? ""`. -/
def orEmpty (v : JsValue) : String := if v.isNullish then "" else v.text

/-- The own fields an object spread copies. -/
def spread : JsValue → List (String × JsValue)
  | obj fields => fields
  | arr items => items.zipIdx.map (fun (v, i) => (i.repr, v))
  | str s => s.toList.zipIdx.map (fun (c, i) => (i.repr, .str (String.ofList [c])))
  | _ => []

end JsValue

inductive PortErrorCode
  | refused | revoked | scope | budget | degraded
  deriving DecidableEq

/-- The reason and the consent id are relayed as law answered them. -/
structure RefusalReport where
  rule : String
  principal : String
  op : String
  reason : JsValue
  consentId : Option JsValue

inductive PortResult
  | ok (value : JsValue)
  | error (code : PortErrorCode) (detail : String) (refusal : Option RefusalReport)

namespace PortResult

def isOk : PortResult → Bool
  | ok _ => true
  | error .. => false

/-- An error register without a refusal report. -/
def fail (code : PortErrorCode) (detail : String) : PortResult := error code detail none

end PortResult

structure StreamChunk where
  streamId : String
  seq : ℕ
  data : JsValue
  final : Bool

inductive PortPriority
  | gate | normal
  deriving DecidableEq

end VivimOmega.Contracts

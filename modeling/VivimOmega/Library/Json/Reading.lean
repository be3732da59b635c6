import VivimOmega.Library.Json.Stringify

/-! Reading values of which nothing is known, and what is refused on the way. -/

namespace VivimOmega.Library.Json

def stringOf : Value → Option String
  | .string s => some (toText s)
  | _ => none

def arrayOf : Value → Option (List Value)
  | .array items => some items
  | _ => none

def textOf : Value → Option JsString
  | .string s => some s
  | _ => none

def isFalsy : Value → Bool
  | .undefined => true
  | .null => true
  | .bool b => !b
  | .number .nan => true
  | .number .zero => true
  | .string s => s.isEmpty
  | .bigint n => n = 0
  | _ => false

def jsText (s : String) : Value := .string (ofText s)

/-- `typeof v`. -/
def kindOf : Value → String
  | .undefined => "undefined"
  | .bigint _ => "bigint"
  | .bool _ => "boolean"
  | .number _ => "number"
  | .string _ => "string"
  | _ => "object"

/-- The index that an own key is, if it is one: such keys come first, in their order. -/
def arrayIndex? (k : JsString) : Option ℕ :=
  let n := digitsValue ((wellFormed k).map digitOf)
  if ofText (toString n) = k ∧ n < 2 ^ 32 - 1 then some n else none

def entries : Value → List (JsString × Value)
  | .object members =>
    let indexed := members.filterMap fun m => (arrayIndex? m.1).map fun n => (n, m)
    (indexed.insertionSort fun a b => a.1 ≤ b.1).map Prod.snd ++ members.filter fun m => (arrayIndex? m.1).isNone
  | _ => []

lemma optionalProperty_cons (k name : String) (v : Value) (rest : List (JsString × Value)) :
    optionalProperty (.object ((ofText k, v) :: rest)) name = if k = name then v else optionalProperty (.object rest) name := by
  have hkey : ofText k = ofText name ↔ k = name := ofText_injective.eq_iff
  have hread : ∀ ms, optionalProperty (.object ms) name =
      ((ms.find? fun m => m.1 = ofText name).map Prod.snd).getD .undefined := fun _ => rfl
  rw [hread, hread]
  split_ifs with heq
  · simp [hkey.mpr heq]
  · simp [mt hkey.mp heq]

lemma optionalProperty_nil (name : String) : optionalProperty (.object []) name = .undefined := rfl

/-- A value in a template, through `JSON.stringify`. -/
def shown : Value → Except String String
  | .undefined => return "undefined"
  | v => stringify v

def require (condition : Bool) (error : String) : Except String Unit :=
  if condition then return () else throw error

lemma require_toOption (condition : Bool) (error : String) :
    (require condition error).toOption = if condition then some () else none := by
  cases condition <;> rfl

lemma require_ok {condition : Bool} {err : String} {u : Unit} (h : require condition err = .ok u) :
    condition = true := by
  unfold require at h
  split_ifs at h with hc
  exact hc

def required {α : Type} (found : Option α) (error : String) : Except String α :=
  match found with
  | some a => return a
  | none => throw error

def iterate : Value → Except String (List Value)
  | .array items => return items
  | .string s => return (toText s).toList.map fun c => .string (units c)
  | _ => throw "TypeError: object is not iterable"

end VivimOmega.Library.Json

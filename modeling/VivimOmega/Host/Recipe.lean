import VivimOmega.Contracts.Recipe
import VivimOmega.Host.Content
import VivimOmega.Library.Json.Reading
import VivimOmega.Library.OrderedMap
import VivimOmega.Library.Utf8

/-! The recipe: what is parsed of it and of the manifests it names, and the verification of its entries.
Thrown errors are given by their text. -/

namespace VivimOmega.Host

open Library Library.Json Library.Json.Value Library.Sha256 Contracts

/-- The signatures of `node:crypto`: public key and signature as they come, and the signed text. -/
structure Ed25519 where
  verify : String → Value → String → Bool

variable (ed : Ed25519) (fs : FileSystem)

def verifyJson (value : Value) (publicKey : String) (signature : Value) : Bool :=
  match canonicalJson value with
  | .ok text => ed.verify publicKey signature text
  | .error _ => false

/-- An entry as `parseRecipe` lets it through, which does not look at what is granted. -/
structure RecipeEntry where
  id : String
  source : String
  manifestPath : String
  manifestHash : String
  contentHash : String
  capabilities : List Value
  contracts : List Value
  bootPhase : ℕ

structure RecipeFields where
  name : String
  composition : List RecipeEntry
  rootOfTrust : RootOfTrust
  signature : String

section Parsing

/-- The natural number that an integer which is not negative is. -/
def naturalOf : Value → Option ℕ
  | .number .zero => some 0
  | .number (.finite false d) =>
    if d.digits.length ≤ d.point then
      some (Nat.ofDigits 10 (d.digits.map Fin.val).reverse * 10 ^ (d.point - d.digits.length).toNat)
    else none
  | _ => none

def one : Value := .number (.finite false oneDigit)

def isOne : Value → Bool
  | .number (.finite false d) => d.digits = [1] ∧ d.point = 1
  | _ => false

def jsonParse (text : String) : Except String Value :=
  required (parse text.toList) "SyntaxError: JSON Parse error"

def parseEntry (e : Value) : Except String RecipeEntry := do
  let idValue ← property e "id"
  let id ← required (stringOf idValue) "Error: recipe: entry missing id"
  require (id ≠ "") "Error: recipe: entry missing id"
  let manifestHash ← required (stringOf (optionalProperty e "manifestHash"))
    ("Error: recipe: " ++ id ++ " bad manifestHash")
  require (Text.startsWith manifestHash "sha256:") ("Error: recipe: " ++ id ++ " bad manifestHash")
  let contentHash ← required (stringOf (optionalProperty e "contentHash"))
    ("Error: recipe: " ++ id ++ " bad contentHash")
  require (Text.startsWith contentHash "sha256:") ("Error: recipe: " ++ id ++ " bad contentHash")
  let grant := optionalProperty e "grant"
  require (!isFalsy grant) ("Error: recipe: " ++ id ++ " bad grant")
  let capabilities ← required (arrayOf (optionalProperty grant "capabilities"))
    ("Error: recipe: " ++ id ++ " bad grant")
  let contracts ← required (arrayOf (optionalProperty grant "contracts"))
    ("Error: recipe: " ++ id ++ " bad grant")
  let bootPhase ← required (naturalOf (optionalProperty e "bootPhase"))
    ("Error: recipe: " ++ id ++ " bad bootPhase")
  let source ← required (stringOf (optionalProperty e "source"))
    ("Error: recipe: " ++ id ++ " missing source/manifestPath")
  let manifestPath ← required (stringOf (optionalProperty e "manifestPath"))
    ("Error: recipe: " ++ id ++ " missing source/manifestPath")
  return { id, source, manifestPath, manifestHash, contentHash, capabilities, contracts, bootPhase }

def readRecipe (r : Value) : Except String RecipeFields := do
  let version ← property r "recipeVersion"
  require (isOne version) ("Error: recipe: unsupported recipeVersion " ++ jsString version)
  let hashAlgo := optionalProperty r "hashAlgo"
  require (stringOf hashAlgo = some "sha256")
    ("Error: recipe: unsupported hashAlgo " ++ jsString hashAlgo)
  let name ← required (stringOf (optionalProperty r "name")) "Error: recipe: missing name"
  require (name ≠ "") "Error: recipe: missing name"
  let items ← required (arrayOf (optionalProperty r "composition")) "Error: recipe: empty composition"
  require (!items.isEmpty) "Error: recipe: empty composition"
  let composition ← items.mapM parseEntry
  let root := optionalProperty r "rootOfTrust"
  require (!isFalsy root) "Error: recipe: bad rootOfTrust"
  let publicKey ← required (stringOf (optionalProperty root "publicKey")) "Error: recipe: bad rootOfTrust"
  let keyId ← required (stringOf (optionalProperty root "keyId")) "Error: recipe: bad rootOfTrust"
  let signature ← required (stringOf (optionalProperty r "signature")) "Error: recipe: missing signature"
  return { name, composition, rootOfTrust := { keyId, publicKey }, signature }

end Parsing

/-- A recipe is the value that was parsed, with what its checked fields hold. -/
structure Recipe extends RecipeFields where
  value : Value
  read : readRecipe value = .ok toRecipeFields

section Parsing

def parseRecipe (text : String) : Except String Recipe := do
  let value ← jsonParse text
  match h : readRecipe value with
  | .ok fields => return ⟨fields, value, h⟩
  | .error err => throw err

lemma jsonParse_render {v : Value} (h : Plain v) : jsonParse (String.ofList v.render) = .ok v := by
  rw [jsonParse, String.toList_ofList, parse_render h]
  rfl

lemma parseRecipe_render {r : Recipe} (h : Plain r.value) :
    parseRecipe (String.ofList r.value.render) = .ok r := by
  obtain ⟨fields, value, hread⟩ := r
  dsimp only at h ⊢
  rw [parseRecipe, jsonParse_render h, ok_bind]
  split
  · next hsame =>
    cases hread.symm.trans hsame
    rfl
  · next hsame => cases hread.symm.trans hsame

def membersOf : Value → List (JsString × Value)
  | .object members => members
  | _ => []

/-- What is signed of a recipe: all but its signature. -/
def unsignedRecipe (r : Recipe) : Value :=
  .object ((membersOf r.value).filter fun m => m.1 ≠ ofText "signature")

/-- A manifest as parsed, with the defaults filled in. -/
structure Manifest where
  id : String
  entry : String
  value : Value

/-- `??=` -/
def fillIn (members : List (JsString × Value)) (name : String) (default : Value) :
    List (JsString × Value) :=
  match optionalProperty (.object members) name with
  | .undefined => assign members (ofText name) default
  | .null => assign members (ofText name) default
  | _ => members

def defaults (members : List (JsString × Value)) : List (JsString × Value) :=
  let hashed := match stringOf (optionalProperty (.object members) "contentHash") with
    | some _ => members
    | none => assign members (ofText "contentHash") (jsText "")
  let published := fillIn hashed "publisher"
    (.object [(ofText "keyId", jsText ""), (ofText "signature", jsText "")])
  let contributed := fillIn published "contributions" (.object [])
  let depending := fillIn contributed "dependencies" (.array [])
  let capable := fillIn depending "capabilities" (.object [(ofText "requested", .array [])])
  let running := fillIn capable "runtime"
    (.object [(ofText "tier", jsText "worker-thread"), (ofText "budget", .object [])])
  fillIn running "granularity" (jsText "atomic")

def parseManifest (text : String) : Except String Manifest := do
  let m ← jsonParse text
  let version ← property m "manifestVersion"
  require (stringOf version = some "1") "Error: manifest: bad manifestVersion"
  let id ← required (stringOf (optionalProperty m "id")) "Error: manifest: missing id"
  require (id ≠ "") "Error: manifest: missing id"
  let entry ← required (stringOf (optionalProperty m "entry"))
    ("Error: manifest " ++ id ++ ": missing entry")
  require (entry ≠ "") ("Error: manifest " ++ id ++ ": missing entry")
  return { id, entry, value := .object (defaults (membersOf m)) }

/-- The publisher's signature covers the manifest with an empty one. -/
def unsignedManifest (m : Manifest) : Value :=
  let keyId := optionalProperty (optionalProperty m.value "publisher") "keyId"
  .object (assign (membersOf m.value) (ofText "publisher")
    (.object [(ofText "keyId", keyId), (ofText "signature", jsText "")]))

def publisherSignature (m : Manifest) : Value :=
  optionalProperty (optionalProperty m.value "publisher") "signature"

end Parsing

section Composition

def verifyRecipeSignature (r : Recipe) : Bool :=
  verifyJson ed (unsignedRecipe r) r.rootOfTrust.publicKey (jsText r.signature)

/-- One key of a map: an object is no other object. -/
def sameKey : Value → Value → Bool
  | .undefined, .undefined => true
  | .null, .null => true
  | .bool a, .bool b => a = b
  | .bigint m, .bigint n => m = n
  | .number m, .number n => m = n
  | .string s, .string t => s = t
  | _, _ => false

def routedOpConflicts : List (Value × String) → List (Value × String) → List String
  | _, [] => []
  | seen, (op, id) :: rest =>
    match seen.find? fun s => sameKey s.1 op with
    | some s =>
      ("routed op conflict: " ++ jsString op ++ " granted to both " ++ s.2 ++ " and " ++ id) ::
        routedOpConflicts ((op, id) :: seen) rest
    | none => routedOpConflicts ((op, id) :: seen) rest

def verifyCompositionInvariants (r : Recipe) : List String :=
  let phase0 := r.composition.filter fun e => e.bootPhase = 0
  (if phase0.map RecipeEntry.id = ["vivim.law"] then []
    else ["bootPhase 0 must be exactly one entry with id 'vivim.law'"]) ++
  routedOpConflicts [] (r.composition.flatMap fun e => e.contracts.map fun op => (op, e.id))

/-- `readFileSync`, which opens no file by a name that ends in a slash. -/
def readText (base : Path) (name : String) : Option String :=
  if Text.endsWith name "/" then none else (fs.readFile (join base name)).map Utf8.decode

structure EntryReport where
  manifest : Option Manifest
  errors : List String

def unreadable (e : RecipeEntry) : EntryReport := ⟨none, ["manifest unreadable: " ++ e.manifestPath]⟩

def manifestErrors (e : RecipeEntry) (text : String) (m : Manifest) (rootPublicKey : String) :
    List String :=
  (if "sha256:" ++ sha256Text text = e.manifestHash then [] else ["manifestHash mismatch for " ++ e.id]) ++
  (if verifyJson ed (unsignedManifest m) rootPublicKey (publisherSignature m) then []
    else ["publisher signature invalid for " ++ e.id])

def contentErrors (e : RecipeEntry) (contentHash : String) : List String :=
  if contentHash = e.contentHash then [] else ["contentHash mismatch for " ++ e.id]

def verifyEntryWithRoot (e : RecipeEntry) (buildDir : Path) (rootPublicKey : String) :
    Except String EntryReport :=
  match readText fs buildDir e.manifestPath with
  | none => return unreadable e
  | some text => do
    let m ← parseManifest text
    let checked := manifestErrors ed e text m rootPublicKey
    match fs.stat (resolve buildDir e.source) with
    | none => return ⟨some m, checked ++ ["source dir missing: " ++ e.source]⟩
    | some tree => do
      let contentHash ← contentHashDir tree
      return ⟨some m, checked ++ contentErrors e contentHash⟩

/-- The async twin, by what the hash of the source tree settles with. -/
def verifyEntryWithRootAsync (e : RecipeEntry) (buildDir : Path) (rootPublicKey : String)
    (contentHashDirAsync : FileTree → Except String String) : Except String EntryReport :=
  match readText fs buildDir e.manifestPath with
  | none => return unreadable e
  | some text => do
    let m ← parseManifest text
    let checked := manifestErrors ed e text m rootPublicKey
    match fs.stat (resolve buildDir e.source) with
    | none => return ⟨some m, checked ++ ["source dir missing: " ++ e.source]⟩
    | some tree =>
      match contentHashDirAsync tree with
      | .ok contentHash => return ⟨some m, checked ++ contentErrors e contentHash⟩
      | .error err => return ⟨some m, checked ++ ["contentHash error for " ++ e.id ++ ": " ++ err]⟩

end Composition

end VivimOmega.Host

import VivimOmega.Library.Disk
import VivimOmega.Library.Json.Canonical
import VivimOmega.Library.Json.Reading
import VivimOmega.Library.Sha256

/-! The author forge: the checks that a recorded spec passes, and the emission of its files. -/

namespace VivimOmega.Forge

open Library Library.Json

section Machine

/-- How a port call ends. -/
inductive PortAnswer
  | ok (value : Value)
  | refused (err detail : String)
  | threw (err : String)

/-- The scratch root of a machine, the configuration, the answers of the law and the vault, and what its writes fail with. -/
structure Machine where
  tmp : Path
  config : Value
  law : PortAnswer
  append : ℕ → PortAnswer
  get : ℕ → PortAnswer
  mkdirFails : ℕ → Option String := fun _ => none
  writeFails : ℕ → Option String := fun _ => none

def TMP_TOKEN : String := "$\x7bTMP\x7d"

def rootText (p : Path) : String := "/" ++ FileTree.pathText p

/-- `join` of an absolute path and a text that does not start with a separator. -/
def joinText (base : Path) (rest : String) : String :=
  let p := join base rest
  rootText p ++ (if p ≠ [] ∧ Text.endsWith rest "/" then "/" else "")

def stripSlashes (s : String) : String := String.ofList (s.toList.dropWhile fun c => c = '/' || c = '\\')

def resolveDataDir (tmp : Path) (input : String) : String :=
  if Text.startsWith input TMP_TOKEN then joinText tmp (stripSlashes (Text.sliceFrom input TMP_TOKEN.length))
  else if input = "/tmp" ∨ Text.startsWith input "/tmp/" then joinText tmp (stripSlashes (Text.sliceFrom input 4))
  else input

def isScratchPath (tmp : Path) (p : String) : Bool := p = rootText tmp || Text.startsWith p (rootText tmp ++ "/")

end Machine

section Grammar

def FORGE_AUTHOR_OP : String := "forge.author.init@1"

def FORGE_AUTHOR_PLUGIN_ID : String := "forge.author"

def SPEC_HASH_TOKEN : JsString := ofText "\x7b\x7bSPEC_HASH\x7d\x7d"

def SPEC_KNOWN_FIELDS : List String :=
  ["schemaVersion", "pluginId", "version", "manifest", "files", "authoredFiles", "authoredRegions", "commandList",
    "output", "sign", "grants", "productComposition"]

def SPEC_BODY_FIELDS : List String :=
  ["schemaVersion", "pluginId", "version", "manifest", "files", "authoredFiles", "authoredRegions"]

/-- `/^sha256:[0-9a-f]{64}$/`. -/
def sha256Format (s : String) : Bool :=
  Text.startsWith s "sha256:" && decide (Sha256.IsDigest (Text.sliceFrom s 7).toList)

structure RecordedFile where
  path : JsString
  template : JsString
  contentHash : JsString

def sha256Of (text : JsString) : String := "sha256:" ++ Sha256.sha256Text (toText text)

mutual

/-- The text with sorted keys; `undefined` has none. -/
def canonicalJson : Value → Except String (Option (List Char))
  | .undefined => return none
  | .bigint _ => throw "TypeError: JSON.stringify cannot serialize BigInt."
  | .null => return some (Value.render .null)
  | .bool b => return some (Value.render (.bool b))
  | .number n => return some (Value.render (.number n))
  | .string s => return some (Value.render (.string s))
  | .array items => do
    let texts ← canonicalItems items
    return some ('[' :: Value.joined texts ++ [']'])
  | .object members => do
    let texts ← canonicalMembers members
    return some ('\x7b' :: Value.joined ((sortKeys texts).map Prod.snd) ++ ['\x7d'])

def canonicalItems : List Value → Except String (List (List Char))
  | [] => return []
  | v :: rest => do
    let text ← canonicalJson v
    let texts ← canonicalItems rest
    return text.getD [] :: texts

def canonicalMembers : List (JsString × Value) → Except String (List (JsString × List Char))
  | [] => return []
  | (k, v) :: rest => do
    let text ← canonicalJson v
    let texts ← canonicalMembers rest
    return (k, quote k ++ ':' :: text.getD "undefined".toList) :: texts

end

def isObjectLike : Value → Bool
  | .object _ => true
  | .array _ => true
  | _ => false

def filesBody (files : Value) : Value :=
  .array (((arrayOf files).getD []).map fun x =>
    if isObjectLike x then
      .object [(ofText "path", optionalProperty x "path"), (ofText "template", optionalProperty x "template")]
    else x)

def specBodyOf (spec : Value) : Value :=
  .object (SPEC_BODY_FIELDS.map fun f =>
    (ofText f, if f = "files" then filesBody (optionalProperty spec "files") else optionalProperty spec f))

def specInputHash (spec : Value) : Except String String :=
  (canonicalJson (specBodyOf spec)).map fun text => sha256Of (ofText (String.ofList (text.getD [])))

/-- `s.split(token).join(value)`. -/
def substitute (token value : JsString) : ℕ → JsString → JsString
  | 0, s => s
  | fuel + 1, s =>
    match s with
    | [] => []
    | u :: rest =>
      if token.isPrefixOf s then value ++ substitute token value fuel (s.drop token.length)
      else u :: substitute token value fuel rest

def renderTemplate (template : JsString) (inputHash : String) : JsString :=
  substitute SPEC_HASH_TOKEN (ofText inputHash) template.length template

def artifactKindFor (path : String) : String :=
  if path = "plugin.json" then "manifest"
  else if path = "package.json" then "package"
  else if Text.startsWith path "src/" then "source"
  else if Text.endsWith path ".md" then "doc"
  else "record"

def proposalArtifactFor (file : RecordedFile) (version : JsString) : Value :=
  .object
    [(ofText "schemaVersion", jsText "1"), (ofText "targetPath", .string file.path),
      (ofText "artifactKind", jsText (artifactKindFor (toText file.path))),
      (ofText "contentHash", .string file.contentHash), (ofText "generatedBy", jsText FORGE_AUTHOR_OP),
      (ofText "ledgerRef", jsText "decision:D-406"), (ofText "authority", jsText "none"),
      (ofText "justification", .string (ofText ("self-hosting emission of " ++ FORGE_AUTHOR_PLUGIN_ID ++ " ") ++ version ++
        ofText ": file " ++ file.path ++ ofText " from recorded spec (inputHash-pinned)"))]

def emissionOutputHash (files : List RecordedFile) : Except String String :=
  let pairs := files.insertionSort fun a b => keyLe a.path b.path
  (canonicalJson (.array (pairs.map fun f =>
    .object [(ofText "path", .string f.path), (ofText "contentHash", .string f.contentHash)]))).map fun text =>
      sha256Of (ofText (String.ofList (text.getD [])))

/-- The segments between slashes and backslashes. -/
def pathSegments (p : String) : List (List Char) := (p.toList.splitOn '/').flatMap fun s => s.splitOn '\\'

def pathIsSafe (p : String) : Bool :=
  p ≠ "" && !Text.startsWith p "/" && (pathSegments p).all fun s => s ≠ [] && s ≠ ['.', '.']

end Grammar

section Checks

structure ForgeRefusal where
  err : String := "REFUSED"
  op : String := FORGE_AUTHOR_OP
  rule : String
  detail : String

inductive Stop
  | refused (r : ForgeRefusal)
  | threw (err : String)

variable {α : Type}

def refuse (rule detail : String) : Except Stop α := .error (.refused { rule := rule, detail := detail })

def orThrow (x : Except String α) : Except Stop α :=
  match x with
  | .ok a => .ok a
  | .error e => .error (.threw e)

def isNullish : Value → Bool
  | .undefined => true
  | .null => true
  | _ => false

def demand (holds : Bool) (rule detail : String) : Except Stop Unit :=
  if holds then return () else refuse rule detail

/-- A demand whose refusal shows a value. -/
def demandShown (holds : Bool) (v : Value) (rule before after : String) : Except Stop Unit :=
  if holds then return ()
  else do
    let text ← orThrow (shown v)
    refuse rule (before ++ text ++ after)

def resolveOutputDir (m : Machine) (spec : Value) : Except Stop String :=
  match optionalProperty spec "output" with
  | .string (u :: rest) =>
    let resolved := resolveDataDir m.tmp (toText (u :: rest))
    if isScratchPath m.tmp resolved then return resolved
    else refuse "SPEC_OUTPUT_SCOPE" ("spec.output " ++ resolved ++
      " is outside the gate-designated scratch proposal path — emission writes scratch only")
  | raw =>
    if isNullish raw then
      match optionalProperty m.config "scratchDir" with
      | .string (u :: rest) =>
        let dir := resolveDataDir m.tmp (toText (u :: rest))
        if isScratchPath m.tmp dir then return dir
        else refuse "SPEC_OUTPUT_SCOPE" ("config.scratchDir " ++ dir ++
          " is outside the scratch proposal path — refuse rather than honor a miscalibrated composition")
      | _ => return rootText (m.tmp ++ ["omega-forge-author", "emission"])
    else refuse "SPEC_OUTPUT_SCOPE" ("spec.output must be a non-empty path string (got " ++ kindOf raw ++ ")")

def isFalse : Value → Bool
  | .bool b => !b
  | _ => false

def isEmptyArray : Value → Bool
  | .array [] => true
  | _ => false

def isEmptyString : Value → Bool
  | .string [] => true
  | _ => false

def isObj : Value → Bool
  | .object _ => true
  | _ => false

def checkFields (spec : Value) : Except Stop Unit :=
  match (entries spec).find? fun e => !SPEC_KNOWN_FIELDS.contains (toText e.1) with
  | some (key, _) => refuse "SPEC_UNKNOWN_FIELD" ("spec carries unknown field \"" ++ toText key ++
      "\" — the recorded-spec grammar is closed (known: " ++ ", ".intercalate SPEC_KNOWN_FIELDS ++ ")")
  | none => return ()

def forbid (request : Value) (inert : Bool) (rule before after : String) : Except Stop Unit :=
  demandShown (isNullish request || inert) request rule before after

/-- The steps a to c, with the output directory. -/
def checkRequest (m : Machine) (payload : Value) : Except Stop String := do
  let got := match payload with
    | .array _ => "array"
    | v => kindOf v
  let spec := optionalProperty payload "spec"
  demand (isObj payload) "SPEC_MALFORMED_INPUT" ("payload must be \x7bspec: RecordedSpec\x7d (got " ++ got ++ ")")
  demand (isObj spec) "SPEC_MALFORMED_INPUT" "payload.spec must be the recorded spec object"
  checkFields spec
  forbid (optionalProperty spec "sign") (isFalse (optionalProperty spec "sign")) "SPEC_SIGNING_FORBIDDEN"
    "spec requests signing (" ") — the Forge signs nothing; signing is a human/host ceremony outside any spec"
  forbid (optionalProperty spec "grants") (isEmptyArray (optionalProperty spec "grants"))
    "SPEC_CAPABILITY_GRANT_FORBIDDEN" "spec requests capability grants ("
    ") — emission confers no authority; grants live in signed compositions only"
  forbid (optionalProperty spec "productComposition") (isEmptyString (optionalProperty spec "productComposition"))
    "SPEC_COMPOSITION_MEMBERSHIP_FORBIDDEN" "spec requests product composition membership ("
    ") — a spec may emit proposals; product membership is a human promote decision"
  resolveOutputDir m spec

def checkVersion (spec : Value) : Except Stop JsString :=
  match optionalProperty spec "version" with
  | .string (u :: rest) => return u :: rest
  | _ => refuse "SPEC_MALFORMED_INPUT" "spec.version must be a non-empty string"

/-- The step d. -/
def checkIdentity (spec : Value) : Except Stop JsString := do
  demandShown (stringOf (optionalProperty spec "pluginId") = some FORGE_AUTHOR_PLUGIN_ID) (optionalProperty spec "pluginId")
    "SPEC_PLUGIN_ID_MISMATCH" "spec.pluginId is " (" — Wave 0 self-hosting serves " ++ FORGE_AUTHOR_PLUGIN_ID ++
      " only (one keystone, no generalization until the wire proves itself)")
  demandShown (stringOf (optionalProperty spec "schemaVersion") = some "1") (optionalProperty spec "schemaVersion")
    "SPEC_MALFORMED_INPUT" "spec.schemaVersion must be \"1\" (got " ")"
  let version ← checkVersion spec
  demand (isObj (optionalProperty spec "manifest")) "SPEC_MALFORMED_INPUT"
    "spec.manifest must be the manifest object the emission reproduces as plugin.json"
  return version

/-- `SHA256_FORMAT.test(v ?? "")`. -/
def isPin (v : Value) : Bool := sha256Format (if isNullish v then "" else jsString v)

/-- The step e: the input hash that the command pins. -/
def checkCommandList (spec : Value) : Except Stop Value :=
  let unpinned (got : String) := "spec.commandList must be exactly one pinned command \x7bop: \"" ++ FORGE_AUTHOR_OP ++
    "\", inputHash, outputHash\x7d (got " ++ got ++ ")"
  match optionalProperty spec "commandList" with
  | .array [pin] =>
    if !isObjectLike pin then refuse "SPEC_COMMAND_LIST_UNPINNED" (unpinned "1 entries")
    else if stringOf (optionalProperty pin "op") = some FORGE_AUTHOR_OP ∧ isPin (optionalProperty pin "inputHash") ∧
        isPin (optionalProperty pin "outputHash") then
      return optionalProperty pin "inputHash"
    else do
      let op ← orThrow (shown (optionalProperty pin "op"))
      let inputHash ← orThrow (shown (optionalProperty pin "inputHash"))
      let outputHash ← orThrow (shown (optionalProperty pin "outputHash"))
      refuse "SPEC_COMMAND_LIST_UNPINNED" ("commandList[0] must pin \"" ++ FORGE_AUTHOR_OP ++
        "\" with sha256-shaped inputHash and outputHash (got op=" ++ op ++ ", inputHash=" ++ inputHash ++
        ", outputHash=" ++ outputHash ++ ")")
  | .array items => refuse "SPEC_COMMAND_LIST_UNPINNED" (unpinned (toString items.length ++ " entries"))
  | cmd => refuse "SPEC_COMMAND_LIST_UNPINNED" (unpinned (kindOf cmd))

def checkFile (f : Value) : Except Stop RecordedFile :=
  if !isObjectLike f then
    refuse "SPEC_MALFORMED_INPUT" "spec.files entries must be objects \x7bpath, template, contentHash\x7d"
  else
    match optionalProperty f "path", optionalProperty f "template", optionalProperty f "contentHash" with
    | .string path, .string template, .string contentHash => do
      demandShown (sha256Format (toText contentHash)) (.string contentHash) "SPEC_MALFORMED_INPUT"
        ("spec.files[" ++ toText path ++ "].contentHash must be \"sha256:<64hex>\" (got ") ")"
      demand (pathIsSafe (toText path)) "SPEC_PATH_ESCAPE" ("spec.files[" ++ toText path ++
        "] escapes the emission tree — paths are relative, \"..\"-free, segment-clean")
      return ⟨path, template, contentHash⟩
    | path, _, _ => do
      let text ← orThrow (shown path)
      refuse "SPEC_MALFORMED_INPUT" ("spec.files entry " ++ text ++ " must carry string path, template, contentHash")

def checkFiles : List JsString → List Value → Except Stop (List RecordedFile)
  | _, [] => return []
  | seen, f :: rest => do
    let file ← checkFile f
    demand (file.path ∉ seen) "SPEC_MALFORMED_INPUT" ("spec.files declares " ++ toText file.path ++ " twice")
    let files ← checkFiles (file.path :: seen) rest
    return file :: files

def checkAuthored : List JsString → List Value → Except Stop Unit
  | _, [] => return ()
  | seen, a :: rest => do
    let path := match a with
      | .string path => path
      | _ => []
    demandShown (pathIsSafe (toText path)) a "SPEC_MALFORMED_INPUT"
      "spec.authoredFiles entries must be safe relative paths (got " ")"
    demand (path ∉ seen) "SPEC_MALFORMED_INPUT" (toText path ++
      " is both generated (files) and authored (authoredFiles) — pick one")
    checkAuthored (path :: seen) rest

def checkRegion (files : List RecordedFile) (r : Value) : Except Stop Unit :=
  let markers := optionalProperty r "markers"
  match isObjectLike r && isObjectLike markers, optionalProperty r "file", optionalProperty markers "begin",
    optionalProperty markers "end" with
  | true, .string file, .string (_ :: _), .string (_ :: _) =>
    demand (files.any fun f => f.path = file) "SPEC_MALFORMED_INPUT" ("authored region names " ++ toText file ++
      ", which is not a generated file — regions cut into generated files only")
  | _, _, _, _ =>
    refuse "SPEC_MALFORMED_INPUT" "spec.authoredRegions entries must be \x7bfile, markers: \x7bbegin, end\x7d\x7d"

/-- The array that is a member of the spec. -/
def arrayIn (v : Value) (detail : String) : Except Stop (List Value) :=
  match v with
  | .array items => return items
  | _ => refuse "SPEC_MALFORMED_INPUT" detail

/-- The step f. -/
def checkStructure (spec : Value) : Except Stop (List RecordedFile) := do
  let noFiles := "spec.files must be a non-empty array of \x7bpath, template, contentHash\x7d"
  let inputs ← arrayIn (optionalProperty spec "files") noFiles
  demand (!inputs.isEmpty) "SPEC_MALFORMED_INPUT" noFiles
  let files ← checkFiles [] inputs
  let authored ← arrayIn (optionalProperty spec "authoredFiles")
    "spec.authoredFiles must be an array (empty unless unavoidable — every entry needs a justification)"
  checkAuthored (files.map RecordedFile.path) authored
  let regions ← arrayIn (optionalProperty spec "authoredRegions") "spec.authoredRegions must be an array (possibly empty)"
  regions.forM (checkRegion files)
  return files

/-- The step h, for a file. -/
def renderPinned (inputHash : String) (f : RecordedFile) : Except Stop (RecordedFile × JsString) :=
  let bytes := renderTemplate f.template inputHash
  let hash := sha256Of bytes
  if ofText hash ≠ f.contentHash then
    refuse "SPEC_CONTENT_PIN_MISMATCH" ("file " ++ toText f.path ++ ": rendered bytes hash to " ++ hash ++
      " but the spec pins " ++ toText f.contentHash ++ " — template and pin disagree, nothing is written")
  else return (f, bytes)

/-- What the steps before the emission have found. -/
structure Plan where
  dir : String
  version : JsString
  inputHash : String
  rendered : List (RecordedFile × JsString)

/-- The steps a to h. -/
def prepare (m : Machine) (payload : Value) : Except Stop Plan := do
  let spec := optionalProperty payload "spec"
  let dir ← checkRequest m payload
  let version ← checkIdentity spec
  let pinned ← checkCommandList spec
  let files ← checkStructure spec
  let inputHash ← orThrow (specInputHash spec)
  demand (stringOf pinned = some inputHash) "SPEC_SPEC_HASH_MISMATCH" ("spec fails its own pin: commandList inputHash " ++
    jsString pinned ++ " ≠ computed " ++ inputHash ++
    " — the recorded spec was modified after pinning (or the pin was forged)")
  let rendered ← files.mapM (renderPinned inputHash)
  return ⟨dir, version, inputHash, rendered⟩

/-- The step i. -/
def checkFresh (disk : Disk) (dir : String) : Except Stop Unit :=
  match disk.get? (resolve [] dir) with
  | none => return ()
  | some (.file _) => .error (.threw "ENOTDIR: not a directory, scandir")
  | some .dir =>
    if disk.children (resolve [] dir) = [] then return ()
    else refuse "SPEC_TARGET_EXISTS" ("emission target " ++ dir ++
      " already exists and is not empty — the Forge proposes into fresh scratch, it never overwrites")

/-- The step j. -/
def lawSelfCheck (m : Machine) : Except Stop Unit :=
  match m.law with
  | .threw e => .error (.threw e)
  | .refused err detail => refuse "SPEC_LAW_REFUSED" ("law.check@1 port refused: " ++ err ++ ": " ++ detail)
  | .ok value =>
    let decision := optionalProperty value "decision"
    let reason := optionalProperty value "reason"
    if stringOf decision = some "allow" then return ()
    else refuse "SPEC_LAW_REFUSED" ("law.check@1 denied " ++ FORGE_AUTHOR_OP ++ " for " ++ FORGE_AUTHOR_PLUGIN_ID ++ ": " ++
      (if isNullish decision then "?" else jsString decision) ++ " — " ++
      (if isNullish reason then "no reason" else jsString reason))

end Checks

end VivimOmega.Forge

import VivimOmega.Host.Coverage

/-! The one boot path: the incoming recipe is tried, pinned and booted, else the pinned one. -/

namespace VivimOmega.Host

open Library Library.Json Library.Json.Value Library.Sha256 Contracts

variable (ed : Ed25519) (fs : FileSystem)

section Booting

structure BootedHost where
  recipe : Recipe
  buildDir : Path
  manifests : OrderedMap String Manifest

/-- What comes of the workers: the error of a checkout, and of the wait until a compartment is active. -/
structure Workers where
  checkout : String → Path → String → Option String
  active : String → Option String

def phases (composition : List RecipeEntry) : List RecipeEntry :=
  composition.insertionSort fun a b => a.bootPhase ≤ b.bootPhase

/-- The capability graph takes an id once, and each of its capabilities must be a string. -/
def registerGraph (seen : List String) (e : RecipeEntry) : Except String (List String) :=
  if e.id ∈ seen then return seen
  else do
    let _ ← e.capabilities.mapM fun cap =>
      required (stringOf cap) "TypeError: cap.startsWith is not a function"
    return e.id :: seen

def throwing (error : Option String) : Except String Unit :=
  match error with
  | none => return ()
  | some err => throw err

def bootEntry (workers : Workers) (buildDir : Path) (manifests : OrderedMap String Manifest)
    (seen : List String) (e : RecipeEntry) : Except String (List String) := do
  let m ← required (manifests.get? e.id) "TypeError: undefined is not an object"
  throwing (if e.bootPhase = 0 then workers.checkout e.id (resolve buildDir e.source) m.entry else none)
  registerGraph seen e

/-- `bootComposition` by what its verification has settled with. -/
def bootComposition (workers : Workers) (r : Recipe) (buildDir : Path)
    (verified : Except String Verification) : Except String BootedHost := do
  let v ← verified
  require (v.errors = []) ("Error: fail-closed boot: " ++ "; ".intercalate v.errors)
  let _ ← (phases r.composition).foldlM (bootEntry workers buildDir v.manifests) []
  let _ ← ((phases r.composition).filter fun e => e.bootPhase = 0).mapM fun e =>
    throwing (workers.active e.id)
  return ⟨r, buildDir, v.manifests⟩

/-- What a boot may settle with. -/
def Boots (workers : Workers) (vaultPublicKey : String) (r : Recipe) (buildDir : Path)
    (result : Except String BootedHost) : Prop :=
  ∃ verified, VerifyCompositionAsync ed fs r buildDir vaultPublicKey verified ∧
    result = bootComposition workers r buildDir verified

end Booting

section Recovery

/-- The vault directory: the key `ensureVault` loads, the pin, and the names of the other files. -/
structure Vault where
  publicKey : String
  pinned : Option String
  names : List String

def isStaleSwap (name : String) : Bool :=
  name = "recipe.pinned.tmp" || Text.startsWith name "recipe.pinned.tmp-"

def cleanupStaleSwap (v : Vault) : Bool × Vault :=
  (v.names.any isStaleSwap, { v with names := v.names.filter fun name => !isStaleSwap name })

def loadPinnedRecipe (v : Vault) : Except String (Option Recipe) :=
  match v.pinned with
  | none => return none
  | some text => do
    let r ← parseRecipe text
    return some r

/-- The rename is atomic: the pin is the new one, or a fault left the old one. -/
def pinRecipe (fault : Option String) (v : Vault) (r : Recipe) : Except String Vault := do
  let text ← stringifyPretty r.value
  throwing fault
  return { v with pinned := some text }

def tryEntries (buildDir : Path) (rootPublicKey : String) :
    List RecipeEntry → Except String (Option String)
  | [] => return none
  | e :: rest => do
    let out ← verifyEntryWithRoot ed fs e buildDir rootPublicKey
    if out.errors = [] then tryEntries buildDir rootPublicKey rest
    else return some ("entry " ++ e.id ++ ": " ++ "; ".intercalate out.errors)

def tryRecipe (rootKey : String) (r : Recipe) (buildDir : Path) : Except String (Option String) :=
  if verifyRecipeSignature ed r = false then return some "recipe signature invalid"
  else if r.rootOfTrust.publicKey ≠ rootKey then return some "recipe root-of-trust key mismatch"
  else if verifyCompositionInvariants r = [] then
    tryEntries ed fs buildDir r.rootOfTrust.publicKey r.composition
  else return some ("; ".intercalate (verifyCompositionInvariants r))

inductive Source
  | incoming | pinned | none
  deriving DecidableEq

structure RecoveryReport where
  booted : Bool
  source : Source
  cleanedStaleSwap : Bool
  reason : Option String

def readRecipeFile (file : Path) : Except String Recipe := do
  let bytes ← required (fs.readFile file) "Error: EISDIR: illegal operation on a directory, read"
  parseRecipe (Utf8.decode bytes)

abbrev Boot := Recipe → Path → Except String BootedHost

/-- The `try` block: a host, or the reason there is none, and the vault after it. -/
def bootIncoming (fault : Option String) (boot : Boot) (v : Vault) (file : Path) :
    Except String BootedHost × Vault :=
  match readRecipeFile fs file with
  | .error err => (.error ("incoming recipe unparseable: " ++ err), v)
  | .ok r =>
    match tryRecipe ed fs v.publicKey r file.dropLast with
    | .error err => (.error ("incoming recipe unparseable: " ++ err), v)
    | .ok (some problem) => (.error ("incoming recipe rejected: " ++ problem), v)
    | .ok none =>
      match pinRecipe fault v r with
      | .error err => (.error ("incoming recipe unparseable: " ++ err), v)
      | .ok v' =>
        match boot r file.dropLast with
        | .error err => (.error ("incoming recipe unparseable: " ++ err), v')
        | .ok host => (.ok host, v')

def pinnedBuildDir (vaultDir : Path) (r : Recipe) : Path := join (vaultDir ++ ["build"]) r.name

def bootPinned (boot : Boot) (vaultDir : Path) (v : Vault) (cleanedStaleSwap : Bool)
    (reason : Option String) : Except String (Option BootedHost × RecoveryReport) :=
  let refusing (why : String) : Option BootedHost × RecoveryReport :=
    (none, ⟨false, .none, cleanedStaleSwap, some why⟩)
  match loadPinnedRecipe v with
  | .error err =>
    return refusing ("pinned recipe unparseable: " ++ err ++ " — recovery mode (refusing to boot)")
  | .ok none =>
    return refusing ((match reason with
      | none => ""
      | some why => why ++ " ") ++ "no pinned recipe — refusing to boot (fail-closed)")
  | .ok (some p) => do
    let problem ← tryRecipe ed fs v.publicKey p (pinnedBuildDir vaultDir p)
    match problem with
    | some problem =>
      return refusing ("pinned recipe corrupt: " ++ problem ++ " — recovery mode (refusing to boot)")
    | none => do
      let host ← boot p (pinnedBuildDir vaultDir p)
      return (some host, ⟨true, .pinned, cleanedStaleSwap, reason⟩)

structure Recovered where
  result : Except String (Option BootedHost × RecoveryReport)
  vault : Vault

def bootWithRecovery (fault : Option String) (boot reboot : Boot) (vaultDir : Path) (vault : Vault)
    (incomingRecipeFile : Option Path) : Recovered :=
  let (cleaned, v) := cleanupStaleSwap vault
  match incomingRecipeFile.filter fun file => (fs.stat file).isSome with
  | none => ⟨bootPinned ed fs reboot vaultDir v cleaned none, v⟩
  | some file =>
    match bootIncoming ed fs fault boot v file with
    | (.ok host, v') => ⟨.ok (some host, ⟨true, .incoming, cleaned, none⟩), v'⟩
    | (.error reason, v') => ⟨bootPinned ed fs reboot vaultDir v' cleaned (some reason), v'⟩

/-- What a call may come to, where the workers of its two boots need not behave alike. -/
def BootWithRecovery (fault : Option String) (workers reworkers : Workers) (vaultDir : Path)
    (vault : Vault) (incomingRecipeFile : Option Path) (out : Recovered) : Prop :=
  ∃ boot reboot : Boot,
    (∀ r dir, Boots ed fs workers vault.publicKey r dir (boot r dir)) ∧
    (∀ r dir, Boots ed fs reworkers vault.publicKey r dir (reboot r dir)) ∧
    out = bootWithRecovery ed fs fault boot reboot vaultDir vault incomingRecipeFile

end Recovery

section Trying

variable {ed fs} {r : Recipe} {e : RecipeEntry} {buildDir : Path} {key : String} {workers : Workers}
  {result : Except String BootedHost}

lemma tryEntries_none {es : List RecipeEntry} :
    tryEntries ed fs buildDir key es = .ok none ↔
      ∀ e ∈ es, ∃ out, verifyEntryWithRoot ed fs e buildDir key = .ok out ∧ out.errors = [] := by
  induction es with
  | nil => simp [tryEntries, pure, Except.pure]
  | cons e rest ih =>
    rw [tryEntries, List.forall_mem_cons, ← ih]
    cases hout : verifyEntryWithRoot ed fs e buildDir key with
    | error err => simp [bind, Except.bind]
    | ok out =>
      rw [ok_bind]
      split_ifs with hnone
      · simp [hnone]
      · simp [hnone, pure, Except.pure]

lemma tryRecipe_none : tryRecipe ed fs key r buildDir = .ok none ↔
    recipeErrors ed r key = [] ∧ ∀ e ∈ r.composition, ∃ out,
      verifyEntryWithRoot ed fs e buildDir r.rootOfTrust.publicKey = .ok out ∧ out.errors = [] := by
  unfold tryRecipe recipeErrors
  rw [← tryEntries_none]
  split_ifs <;> simp_all [pure, Except.pure]

lemma not_refused_of_try (h : tryRecipe ed fs key r buildDir = .ok none) :
    ∀ e ∈ r.composition, ¬ Refused fs buildDir e := by
  intro e he hrefused
  obtain ⟨out, hout, _⟩ := (tryRecipe_none.mp h).2 e he
  obtain ⟨err, herr⟩ := verifyEntryWithRoot_refused ed r.rootOfTrust.publicKey hrefused
  rw [hout] at herr
  cases herr

lemma Boots.exists (ed : Ed25519) (fs : FileSystem) (workers : Workers) (key : String) (r : Recipe)
    (buildDir : Path) : ∃ result, Boots ed fs workers key r buildDir result := by
  obtain ⟨verified, hverified⟩ := VerifyCompositionAsync.exists ed fs r buildDir key
  exact ⟨_, verified, hverified, rfl⟩

/-- A recipe that was tried boots as its verification says, whatever is hashed first. -/
lemma Boots.eq (h : Boots ed fs workers key r buildDir result)
    (htry : tryRecipe ed fs key r buildDir = .ok none) :
    result = bootComposition workers r buildDir (verifyComposition ed fs r buildDir key) := by
  obtain ⟨verified, hverified, rfl⟩ := h
  rw [hverified.eq (not_refused_of_try htry)]

lemma host_recipe {host : BootedHost} {verified : Except String Verification}
    (h : bootComposition workers r buildDir verified = .ok host) : host.recipe = r := by
  obtain ⟨v, _, h⟩ := bind_eq_ok h
  obtain ⟨_, _, h⟩ := bind_eq_ok h
  obtain ⟨_, _, h⟩ := bind_eq_ok h
  obtain ⟨_, _, h⟩ := bind_eq_ok h
  cases h
  rfl

lemma not_refused_of_async {manifests : OrderedMap String Manifest}
    (h : VerifyCompositionAsync ed fs r buildDir key (.ok ⟨manifests, []⟩)) :
    ∀ e ∈ r.composition, ¬ Refused fs buildDir e := by
  intro e he hrefused
  obtain ⟨outs, hall, hresult⟩ := h
  obtain ⟨reports, hreports, hconclude⟩ := bind_eq_ok hresult.symm
  obtain ⟨_, hclean, _⟩ := concludeVerification_clean hconclude
  obtain ⟨out, hmem, hout⟩ := forall₂_mem hall he
  obtain ⟨report, rfl, herrors⟩ := hout.refused hrefused
  exact herrors (hclean report (mem_of_mapM hreports hmem rfl))

/-- What verifies without an error passes the trial. -/
lemma try_of_verified {manifests : OrderedMap String Manifest}
    (h : verifyComposition ed fs r buildDir key = .ok ⟨manifests, []⟩) :
    tryRecipe ed fs key r buildDir = .ok none := by
  obtain ⟨outs, houts, hconclude⟩ := bind_eq_ok h
  obtain ⟨hrecipe, hclean, _⟩ := concludeVerification_clean hconclude
  refine tryRecipe_none.mpr ⟨hrecipe, fun e he => ?_⟩
  obtain ⟨out, hmem, hout⟩ := forall₂_mem (mapM_forall₂ houts) he
  exact ⟨out, hout, hclean out hmem⟩

lemma try_of_async {manifests : OrderedMap String Manifest}
    (h : VerifyCompositionAsync ed fs r buildDir key (.ok ⟨manifests, []⟩)) :
    tryRecipe ed fs key r buildDir = .ok none :=
  try_of_verified (h.eq (not_refused_of_async h)).symm

end Trying

section PinSafety

/-- A vault whose pinned recipe passes the whole verification of boot. -/
structure PinnedVault (vaultDir : Path) extends Vault where
  text : String
  recipe : Recipe
  manifests : OrderedMap String Manifest
  pinned_eq : pinned = some text
  parsed : parseRecipe text = .ok recipe
  verified : VerifyCompositionAsync ed fs recipe (pinnedBuildDir vaultDir recipe) publicKey
    (.ok ⟨manifests, []⟩)

/-- Every check of boot succeeds: verification, routing, registration and the workers. -/
def Bootable (workers : Workers) (key : String) (r : Recipe) (buildDir : Path) : Prop :=
  ∃ host, bootComposition workers r buildDir (verifyComposition ed fs r buildDir key) = .ok host

/-- The recipe of the file is accepted before it is pinned. -/
def Accepts (key : String) (file : Path) (r : Recipe) : Prop :=
  readRecipeFile fs file = .ok r ∧ tryRecipe ed fs key r file.dropLast = .ok none

/-- The incoming recipe boots, or the pin is unchanged and boots as far as its workers do. -/
def PinSafe {vaultDir : Path} (V : PinnedVault ed fs vaultDir) (fault : Option String)
    (workers reworkers : Workers) (incomingRecipeFile : Option Path) : Prop :=
  ∀ out, BootWithRecovery ed fs fault workers reworkers vaultDir V.toVault incomingRecipeFile out →
    (∃ host report, out.result = .ok (some host, report) ∧ report.source = .incoming) ∨
    (out.vault.pinned = V.pinned ∧
      (Bootable ed fs reworkers V.publicKey V.recipe (pinnedBuildDir vaultDir V.recipe) →
        ∃ host report, out.result = .ok (some host, report) ∧ report.source = .pinned ∧
          host.recipe = V.recipe))

variable {ed fs} {vaultDir : Path} {V : PinnedVault ed fs vaultDir} {fault : Option String}
  {workers reworkers : Workers} {boot reboot : Boot} {v v' : Vault} {file : Path} {r : Recipe}

/-- With the pin and the key as they were, the pinned recipe boots again. -/
lemma bootPinned_ok (hpin : v.pinned = V.pinned) (hkey : v.publicKey = V.publicKey)
    (hreboot : ∀ r dir, Boots ed fs reworkers V.publicKey r dir (reboot r dir))
    (hbootable : Bootable ed fs reworkers V.publicKey V.recipe (pinnedBuildDir vaultDir V.recipe))
    (cleaned : Bool) (reason : Option String) :
    ∃ host report, bootPinned ed fs reboot vaultDir v cleaned reason = .ok (some host, report) ∧
      report.source = .pinned ∧ host.recipe = V.recipe := by
  obtain ⟨host, hhost⟩ := hbootable
  have htry := try_of_async V.verified
  have hload : loadPinnedRecipe v = .ok (some V.recipe) := by
    rw [loadPinnedRecipe, hpin, V.pinned_eq]
    dsimp only
    rw [V.parsed]
    rfl
  refine ⟨host, ⟨true, .pinned, cleaned, reason⟩, ?_, rfl, host_recipe hhost⟩
  unfold bootPinned
  simp only [hload, hkey, htry, ok_bind]
  rw [(hreboot _ _).eq htry, hhost]
  rfl

/-- The incoming recipe changes the pin only once it was accepted and written. -/
lemma bootIncoming_cases (ed : Ed25519) (fs : FileSystem) (fault : Option String) (boot : Boot)
    (v : Vault) (file : Path) :
    (∃ reason, bootIncoming ed fs fault boot v file = (.error reason, v)) ∨
    ∃ r text, Accepts ed fs v.publicKey file r ∧ fault = none ∧ stringifyPretty r.value = .ok text ∧
      bootIncoming ed fs fault boot v file =
        ((boot r file.dropLast).mapError ("incoming recipe unparseable: " ++ ·),
          { v with pinned := some text }) := by
  unfold bootIncoming
  cases hread : readRecipeFile fs file with
  | error err => exact Or.inl ⟨_, rfl⟩
  | ok r =>
    dsimp only
    cases htry : tryRecipe ed fs v.publicKey r file.dropLast with
    | error err => exact Or.inl ⟨_, rfl⟩
    | ok problem =>
      cases problem with
      | some problem => exact Or.inl ⟨_, rfl⟩
      | none =>
        dsimp only
        rw [pinRecipe]
        cases htext : stringifyPretty r.value with
        | error err => exact Or.inl ⟨_, rfl⟩
        | ok text =>
          cases fault with
          | some err => exact Or.inl ⟨_, rfl⟩
          | none =>
            refine Or.inr ⟨r, text, ⟨hread, htry⟩, rfl, htext, ?_⟩
            simp only [throwing, pure, Except.pure, bind, Except.bind]
            cases boot r file.dropLast <;> rfl

lemma bootPinned_source {cleaned : Bool} {reason : Option String} {host : Option BootedHost}
    {report : RecoveryReport}
    (h : bootPinned ed fs reboot vaultDir v cleaned reason = .ok (host, report)) :
    report.source ≠ .incoming := by
  unfold bootPinned at h
  split at h
  · cases h
    nofun
  · cases h
    nofun
  · obtain ⟨problem, _, h⟩ := bind_eq_ok h
    cases problem with
    | some problem =>
      cases h
      nofun
    | none =>
      obtain ⟨_, _, h⟩ := bind_eq_ok h
      cases h
      nofun

lemma stat_of_read (h : readRecipeFile fs file = .ok r) : (fs.stat file).isSome := by
  obtain ⟨bytes, hbytes, _⟩ := bind_eq_ok h
  cases hstat : fs.stat file with
  | some t => rfl
  | none =>
    rw [FileSystem.readFile, hstat] at hbytes
    cases hbytes

/-- A recipe that is accepted and does not boot takes the place of the pinned one. -/
lemma overwritten {text : String} (haccepts : Accepts ed fs V.publicKey file r)
    (htext : stringifyPretty r.value = .ok text)
    (hnot : ¬ Bootable ed fs workers V.publicKey r file.dropLast) (hne : text ≠ V.text) :
    ¬ PinSafe ed fs V none workers reworkers (some file) := by
  intro hsafe
  choose boot hboot using fun r dir => Boots.exists ed fs workers V.publicKey r dir
  choose reboot hreboot using fun r dir => Boots.exists ed fs reworkers V.publicKey r dir
  obtain ⟨err, herr⟩ : ∃ err, boot r file.dropLast = .error err := by
    cases hresult : boot r file.dropLast with
    | error err => exact ⟨err, rfl⟩
    | ok host => exact absurd ⟨host, (hresult ▸ (hboot r _).eq haccepts.2).symm⟩ hnot
  have hincoming : bootIncoming ed fs none boot (cleanupStaleSwap V.toVault).2 file =
      (.error ("incoming recipe unparseable: " ++ err),
        { (cleanupStaleSwap V.toVault).2 with pinned := some text }) := by
    simp [bootIncoming, haccepts.1, cleanupStaleSwap, haccepts.2, pinRecipe, htext, throwing, herr,
      pure, Except.pure, bind, Except.bind]
  have hfound : (some file).filter (fun file => (fs.stat file).isSome) = some file :=
    Option.filter_eq_some_iff.mpr ⟨rfl, stat_of_read haccepts.1⟩
  obtain ⟨host, report, hresult, hsource⟩ | ⟨hpinned, _⟩ := hsafe _ ⟨boot, reboot, hboot, hreboot, rfl⟩
  · simp only [bootWithRecovery, hfound, hincoming] at hresult
    exact bootPinned_source hresult hsource
  · simp only [bootWithRecovery, hfound, hincoming, V.pinned_eq] at hpinned
    exact hne (Option.some.inj hpinned)

/-- The pin is safe exactly if each incoming recipe that is accepted, and written, either boots or is the
pinned text itself. -/
theorem pin_safe_iff (ed : Ed25519) (fs : FileSystem) {vaultDir : Path} (V : PinnedVault ed fs vaultDir)
    (fault : Option String) (workers reworkers : Workers) (incomingRecipeFile : Option Path) :
    PinSafe ed fs V fault workers reworkers incomingRecipeFile ↔
      ∀ file r text, incomingRecipeFile = some file → Accepts ed fs V.publicKey file r → fault = none →
        stringifyPretty r.value = .ok text →
        Bootable ed fs workers V.publicKey r file.dropLast ∨ text = V.text := by
  constructor
  · rintro hsafe file r text rfl haccepts rfl htext
    by_contra hnot
    obtain ⟨hfails, hne⟩ := not_or.mp hnot
    exact overwritten haccepts htext hfails hne hsafe
  · rintro h out ⟨boot, reboot, hboot, hreboot, rfl⟩
    unfold bootWithRecovery
    cases hfile : incomingRecipeFile.filter fun file => (fs.stat file).isSome with
    | none =>
      refine Or.inr ⟨rfl, fun hbootable => ?_⟩
      exact bootPinned_ok (v := (cleanupStaleSwap V.toVault).2) rfl rfl hreboot hbootable
        (cleanupStaleSwap V.toVault).1 none
    | some file =>
      obtain ⟨hincoming, _⟩ := Option.filter_eq_some_iff.mp hfile
      obtain ⟨reason, hcase⟩ | ⟨r, text, haccepts, hfault, htext, hcase⟩ :=
        bootIncoming_cases ed fs fault boot (cleanupStaleSwap V.toVault).2 file
      · simp only [hcase]
        refine Or.inr ⟨rfl, fun hbootable => ?_⟩
        exact bootPinned_ok (v := (cleanupStaleSwap V.toVault).2) rfl rfl hreboot hbootable _ _
      · have hresult := (hboot r file.dropLast).eq haccepts.2
        simp only [hcase]
        cases hsettled : boot r file.dropLast with
        | ok host => exact Or.inl ⟨host, _, rfl, rfl⟩
        | error err =>
          obtain ⟨host, hhost⟩ | rfl := h file r text hincoming haccepts hfault htext
          · rw [← hresult, hsettled] at hhost
            cases hhost
          · have hpinned : some V.text = V.pinned := V.pinned_eq.symm
            refine Or.inr ⟨hpinned, fun hbootable => ?_⟩
            exact bootPinned_ok (v := { (cleanupStaleSwap V.toVault).2 with pinned := some V.text })
              hpinned rfl hreboot hbootable (cleanupStaleSwap V.toVault).1
              (some ("incoming recipe unparseable: " ++ err))

end PinSafety

section Undeclared

lemma readRecipeFile_utf8 {fs : FileSystem} {file : Path} {text : String}
    (h : fs.readFile file = some (utf8 text)) : readRecipeFile fs file = parseRecipe text := by
  rw [readRecipeFile, h, required]
  change parseRecipe (Utf8.decode (utf8 text)) = _
  rw [utf8, Utf8.decode_encoded]

def lawEntry (contracts : List Value) : RecipeEntry where
  id := "vivim.law"
  source := "src"
  manifestPath := "law.json"
  manifestHash := "sha256:7dfaaa09287eac24bc358085b511c2b5544bdace76a793a2925fc47dd0d7f1ef"
  contentHash := "sha256:e3b0c44298fc1c149afbf4c8996fb92427ae41e4649b934ca495991b7852b855"
  capabilities := []
  contracts := contracts
  bootPhase := 0

def lawFields (contracts : List Value) : RecipeFields where
  name := "law"
  composition := [lawEntry contracts]
  rootOfTrust := ⟨"key", "public"⟩
  signature := "signed by public"

def lawEntryValue (contracts : List Value) : Value :=
  .object [(ofText "id", jsText "vivim.law"),
    (ofText "manifestHash", jsText "sha256:7dfaaa09287eac24bc358085b511c2b5544bdace76a793a2925fc47dd0d7f1ef"),
    (ofText "contentHash", jsText "sha256:e3b0c44298fc1c149afbf4c8996fb92427ae41e4649b934ca495991b7852b855"),
    (ofText "grant", .object [(ofText "capabilities", .array []), (ofText "contracts", .array contracts)]),
    (ofText "bootPhase", .number .zero), (ofText "source", jsText "src"),
    (ofText "manifestPath", jsText "law.json")]

def lawValue (contracts : List Value) : Value :=
  .object [(ofText "recipeVersion", one), (ofText "hashAlgo", jsText "sha256"),
    (ofText "name", jsText "law"), (ofText "composition", .array [lawEntryValue contracts]),
    (ofText "rootOfTrust", .object [(ofText "keyId", jsText "key"), (ofText "publicKey", jsText "public")]),
    (ofText "signature", jsText "signed by public")]

lemma readRecipe_lawValue (contracts : List Value) :
    readRecipe (lawValue contracts) = .ok (lawFields contracts) := by
  have hversion : property (lawValue contracts) "recipeVersion" = .ok one := rfl
  have hitems : arrayOf (optionalProperty (lawValue contracts) "composition") =
      some [lawEntryValue contracts] := rfl
  rw [readRecipe, hversion, ok_bind, hitems]
  rfl

def lawRecipe (contracts : List Value) : Recipe where
  toRecipeFields := lawFields contracts
  value := lawValue contracts
  read := readRecipe_lawValue contracts

lemma plain_lawValue {contracts : List Value} (h : ∀ v ∈ contracts, Plain v) :
    Plain (lawRecipe contracts).value := by
  refine .object (by simp only [List.map_cons, List.map_nil]; decide) ?_
  simp only [List.forall_mem_cons, List.not_mem_nil, false_implies, implies_true, and_true]
  refine ⟨.number (by decide), .string _, .string _, .array ?_, .object (by decide) ?_, .string _⟩
  · rw [List.forall_mem_singleton]
    refine .object (by simp only [List.map_cons, List.map_nil]; decide) ?_
    simp only [List.forall_mem_cons, List.not_mem_nil, false_implies, implies_true, and_true]
    refine ⟨.string _, .string _, .string _, .object (by simp only [List.map_cons, List.map_nil]; decide) ?_,
      .number (by decide), .string _, .string _⟩
    simp only [List.forall_mem_cons, List.not_mem_nil, false_implies, implies_true, and_true]
    exact ⟨.array nofun, .array h⟩
  · simp only [List.forall_mem_cons, List.not_mem_nil, false_implies, implies_true, and_true]
    exact ⟨.string _, .string _⟩

def recipeText (contracts : List Value) : String := String.ofList (lawRecipe contracts).value.render

lemma parse_recipeText {contracts : List Value} (h : ∀ v ∈ contracts, Plain v) :
    parseRecipe (recipeText contracts) = .ok (lawRecipe contracts) := by
  rw [recipeText]
  exact parseRecipe_render (plain_lawValue h)

/-- An operation that no manifest declares. -/
def undeclared : List Value := [jsText "echo.ping@1"]

def recoveryTree : FileTree :=
  .dir [("in", .dir [("law.json", .file (utf8 lawManifestText)),
      ("recipe.json", .file (utf8 (recipeText undeclared))), ("src", .dir [])]),
    ("vault", .dir [("build", .dir [("law", .dir [("law.json", .file (utf8 lawManifestText)),
      ("src", .dir [])])])])]

lemma wellFormed_recoveryTree : recoveryTree.WellFormed := by
  refine .dir (by decide) (by decide) ?_
  simp only [List.forall_mem_cons, List.not_mem_nil, false_implies, implies_true, and_true]
  constructor
  · refine .dir (by decide) (by decide) ?_
    simp only [List.forall_mem_cons, List.not_mem_nil, false_implies, implies_true, and_true]
    refine ⟨.file _, .file _, .dir (by decide) (by decide) ?_⟩
    simp
  · refine .dir (by decide) (by decide) ?_
    simp only [List.forall_mem_singleton]
    refine .dir (by decide) (by decide) ?_
    simp only [List.forall_mem_singleton]
    refine .dir (by decide) (by decide) ?_
    simp only [List.forall_mem_cons, List.not_mem_nil, false_implies, implies_true, and_true]
    refine ⟨.file _, .dir (by decide) (by decide) ?_⟩
    simp

def recoveryFiles : FileSystem := .ofTree recoveryTree wellFormed_recoveryTree

lemma lawManifest_clean (contracts : List Value) :
    manifestErrors namingScheme (lawEntry contracts) lawManifestText lawManifest "public" = [] := by
  rw [manifestErrors, lawManifest_hash]
  rfl

/-- The entry verifies from wherever its manifest and its empty source directory are. -/
lemma lawEntry_verifies {buildDir : Path} (contracts : List Value)
    (hmanifest : recoveryFiles.readFile (join buildDir "law.json") = some (utf8 lawManifestText))
    (hsource : recoveryFiles.stat (resolve buildDir "src") = some (.dir [])) :
    verifyEntryWithRoot namingScheme recoveryFiles (lawEntry contracts) buildDir "public" =
      .ok ⟨some lawManifest, []⟩ := by
  have hname : Text.endsWith "law.json" "/" = false := by decide
  exact verifyEntry_empty hname hmanifest lawManifest_parses (lawManifest_clean contracts) hsource rfl

lemma lawRecipe_verifies (buildDir : Path) {contracts : List Value}
    (hmanifest : recoveryFiles.readFile (join buildDir "law.json") = some (utf8 lawManifestText))
    (hsource : recoveryFiles.stat (resolve buildDir "src") = some (.dir []))
    (herrors : recipeErrors namingScheme (lawRecipe contracts) "public" = []) :
    tryRecipe namingScheme recoveryFiles "public" (lawRecipe contracts) buildDir = .ok none ∧
      verifyComposition namingScheme recoveryFiles (lawRecipe contracts) buildDir "public" =
        concludeVerification namingScheme (lawRecipe contracts) "public" [⟨some lawManifest, []⟩] := by
  have hentry := lawEntry_verifies contracts hmanifest hsource
  constructor
  · exact tryRecipe_none.mpr ⟨herrors, List.forall_mem_singleton.mpr ⟨_, hentry, rfl⟩⟩
  · have hentries : (lawRecipe contracts).composition.mapM (fun e => verifyEntryWithRoot namingScheme
        recoveryFiles e buildDir (lawRecipe contracts).rootOfTrust.publicKey) =
          .ok [⟨some lawManifest, []⟩] := by
      change [lawEntry contracts].mapM _ = _
      rw [List.mapM_cons]
      simp only [lawRecipe, lawFields, hentry]
      rfl
    rw [verifyComposition, hentries, ok_bind]

/-- How the two recipes of the law conclude, and how the one is written. -/
structure UndeclaredRun : Prop where
  declaredErrors : recipeErrors namingScheme (lawRecipe []) "public" = []
  undeclaredErrors : recipeErrors namingScheme (lawRecipe undeclared) "public" = []
  accepted : (concludeVerification namingScheme (lawRecipe []) "public" [⟨some lawManifest, []⟩]).toOption.map
    Verification.errors = some []
  refused : (concludeVerification namingScheme (lawRecipe undeclared) "public" [⟨some lawManifest, []⟩]).toOption.map
    Verification.errors = some ["vivim.law granted routed op echo.ping@1 but its manifest does not declare it"]
  broken : (serialized (lawRecipe undeclared).value).toOption.map (fun w => (prettyText 0 w)[1]?) = some (some '\n')
  quoted : (lawRecipe []).value.render[1]? = some '"'

lemma undeclared_run : UndeclaredRun := by
  constructor <;> decide

structure RecoveryPaths : Prop where
  buildDir : pinnedBuildDir ["vault"] (lawRecipe []) = ["vault", "build", "law"]
  manifest : join ["vault", "build", "law"] "law.json" = ["vault", "build", "law", "law.json"]
  source : resolve ["vault", "build", "law"] "src" = ["vault", "build", "law", "src"]
  incomingManifest : join ["in"] "law.json" = ["in", "law.json"]
  incomingSource : resolve ["in"] "src" = ["in", "src"]

lemma recovery_paths : RecoveryPaths := by
  constructor <;> decide

lemma recoveryFiles_recipe :
    recoveryFiles.readFile ["in", "recipe.json"] = some (utf8 (recipeText undeclared)) := rfl

lemma read_undeclared : readRecipeFile recoveryFiles ["in", "recipe.json"] = .ok (lawRecipe undeclared) :=
  (readRecipeFile_utf8 recoveryFiles_recipe).trans
    (parse_recipeText (List.forall_mem_singleton.mpr (.string _)))

lemma exists_pinnedVault : ∃ V : PinnedVault namingScheme recoveryFiles ["vault"],
    V.publicKey = "public" ∧ V.text = recipeText [] := by
  obtain ⟨hdir, hjoin, hresolve, _, _⟩ := recovery_paths
  have herrors := undeclared_run.declaredErrors
  have hconclusion := undeclared_run.accepted
  obtain ⟨htried, hverified⟩ := lawRecipe_verifies ["vault", "build", "law"] (by rw [hjoin]; rfl)
    (by rw [hresolve]; rfl) herrors
  obtain ⟨⟨manifests, errors⟩, hresult, rfl⟩ := ok_of_toOption hconclusion
  obtain ⟨settled, hsettled⟩ := VerifyCompositionAsync.exists namingScheme recoveryFiles (lawRecipe [])
    ["vault", "build", "law"] "public"
  have hparsed : parseRecipe (recipeText []) = .ok (lawRecipe []) := parse_recipeText nofun
  refine ⟨⟨⟨"public", some (recipeText []), []⟩, recipeText [], lawRecipe [], manifests, rfl, hparsed, ?_⟩,
    rfl, rfl⟩
  rw [hdir, ← hresult, ← hverified, ← hsettled.eq (not_refused_of_try htried)]
  exact hsettled

/-- A recipe that grants an undeclared operation is pinned, and then refused. -/
theorem pin_overwritten :
    ¬ ∀ (ed : Ed25519) (fs : FileSystem) (vaultDir : Path) (V : PinnedVault ed fs vaultDir)
      (fault : Option String) (workers reworkers : Workers) (incomingRecipeFile : Option Path),
      PinSafe ed fs V fault workers reworkers incomingRecipeFile := by
  intro h
  obtain ⟨V, hkey, hpinned⟩ := exists_pinnedVault
  obtain ⟨_, _, _, hjoin, hresolve⟩ := recovery_paths
  obtain ⟨_, herrors, _, hconclusion, hbreak, hquote⟩ := undeclared_run
  obtain ⟨htried, hverified⟩ := lawRecipe_verifies ["in"] (by rw [hjoin]; rfl)
    (by rw [hresolve]; rfl) herrors
  obtain ⟨v, hresult, hrefused⟩ := ok_of_toOption hconclusion
  obtain ⟨w, hserialized, hsecond⟩ := ok_of_toOption hbreak
  have hpretty : stringifyPretty (lawRecipe undeclared).value = .ok (String.ofList (prettyText 0 w)) := by
    rw [stringifyPretty, hserialized]
    rfl
  have hne : String.ofList (prettyText 0 w) ≠ V.text := by
    intro hsame
    rw [hpinned, recipeText, String.ofList_inj] at hsame
    rw [hsame, hquote] at hsecond
    cases hsecond
  have workers : Workers := ⟨fun _ _ _ => none, fun _ => none⟩
  have hfails : ¬ Bootable namingScheme recoveryFiles workers V.publicKey (lawRecipe undeclared) ["in"] := by
    rintro ⟨host, hhost⟩
    rw [hkey] at hhost
    obtain ⟨w, hw, hhost⟩ := bind_eq_ok hhost
    obtain ⟨_, hrequire, _⟩ := bind_eq_ok hhost
    rw [hverified, hresult] at hw
    cases hw
    rw [hrefused] at hrequire
    cases hrequire
  exact overwritten ⟨read_undeclared, hkey ▸ htried⟩ hpretty hfails hne
    (h namingScheme recoveryFiles ["vault"] V none workers workers (some ["in", "recipe.json"]))

end Undeclared

end VivimOmega.Host

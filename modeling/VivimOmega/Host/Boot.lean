import VivimOmega.Host.Recipe
import VivimOmega.Library.Collect

/-! Boot verification of a composition, entry after entry or all entries at once. -/

namespace VivimOmega.Host

open Library Library.Json Contracts

variable (ed : Ed25519) (fs : FileSystem)

section Routing

def contributionOp (c : Value) : Except String String := do
  let id ← property c "id"
  return jsString id ++ "@" ++ jsString (optionalProperty c "version")

def contributedOps (contributions : Value) (kind : String) : Except String (List String) :=
  match optionalProperty contributions kind with
  | .undefined => return []
  | .null => return []
  | found => do
    let items ← iterate found
    items.mapM contributionOp

def routableOps (m : Manifest) : Except String (List String) := do
  let contributions := optionalProperty m.value "contributions"
  let contract ← contributedOps contributions "contract"
  let engine ← contributedOps contributions "engine"
  let provider ← contributedOps contributions "provider"
  return contract ++ engine ++ provider

/-- An entry's granted ops, each routed to it if its manifest declares the op. -/
def routeOps (e : RecipeEntry) (ops : List String) (opRoute : OrderedMap String String) :
    List Value → OrderedMap String String × List String
  | [] => (opRoute, [])
  | declared :: rest =>
    match ops.find? fun op => stringOf declared = some op with
    | some op => routeOps e ops (opRoute.set op e.id) rest
    | none =>
      let (routed, errors) := routeOps e ops opRoute rest
      (routed, (e.id ++ " granted routed op " ++ jsString declared ++
        " but its manifest does not declare it") :: errors)

def grantsContract (composition : List RecipeEntry) (want : String) : Bool :=
  composition.any fun x => x.contracts.any fun op => stringOf op = some want

def dependencyErrors (composition : List RecipeEntry) (e : RecipeEntry) (dep : Value) :
    Except String (List String) := do
  let refValue ← property dep "ref"
  let ref ← required (stringOf refValue) "TypeError: dep.ref.startsWith is not a function"
  return if Text.startsWith ref "contract:" ∧
      grantsContract composition (Text.sliceFrom ref "contract:".length) = false
    then [e.id ++ " dependency " ++ ref ++ " unsatisfied in composition"] else []

structure RoutingTable where
  opRoute : OrderedMap String String
  errors : List String

def routeEntry (composition : List RecipeEntry) (manifests : OrderedMap String Manifest)
    (table : RoutingTable) (e : RecipeEntry) : Except String RoutingTable :=
  match manifests.get? e.id with
  | none => return { table with errors := table.errors ++ ["no manifest for entry " ++ e.id] }
  | some m => do
    let ops ← routableOps m
    let (opRoute, grantErrors) := routeOps e ops table.opRoute e.contracts
    let deps ← iterate (optionalProperty m.value "dependencies")
    let unsatisfied ← deps.mapM (dependencyErrors composition e)
    return ⟨opRoute, table.errors ++ grantErrors ++ unsatisfied.flatten⟩

def buildRoutingTable (r : Recipe) (manifests : OrderedMap String Manifest) :
    Except String RoutingTable :=
  r.composition.foldlM (routeEntry r.composition manifests) ⟨.empty, []⟩

end Routing

section Verification

structure Verification where
  manifests : OrderedMap String Manifest
  errors : List String

def recipeErrors (r : Recipe) (vaultPublicKey : String) : List String :=
  (if verifyRecipeSignature ed r then [] else ["recipe signature invalid"]) ++
  (if r.rootOfTrust.publicKey = vaultPublicKey then []
    else ["recipe root-of-trust does not match the vault key"]) ++
  verifyCompositionInvariants r

def setManifest (manifests : OrderedMap String Manifest) (out : RecipeEntry × EntryReport) :
    OrderedMap String Manifest :=
  match out.2.manifest with
  | none => manifests
  | some m => manifests.set out.1.id m

/-- The verdict on the entries together, and on their routing where there is nothing else to say. -/
def concludeVerification (r : Recipe) (vaultPublicKey : String) (outs : List EntryReport) :
    Except String Verification :=
  let errors := recipeErrors ed r vaultPublicKey ++ outs.flatMap EntryReport.errors
  let manifests := (r.composition.zip outs).foldl setManifest .empty
  if errors = [] then do
    let table ← buildRoutingTable r manifests
    return ⟨manifests, table.errors⟩
  else return ⟨manifests, errors⟩

def verifyComposition (r : Recipe) (buildDir : Path) (vaultPublicKey : String) :
    Except String Verification := do
  let outs ← r.composition.mapM fun e => verifyEntryWithRoot ed fs e buildDir r.rootOfTrust.publicKey
  concludeVerification ed r vaultPublicKey outs

/-- What the verification of one entry may settle with. -/
def EntrySettles (e : RecipeEntry) (buildDir : Path) (rootPublicKey : String)
    (out : Except String EntryReport) : Prop :=
  ∃ settled : FileTree → Except String String, (∀ t, ContentHashDirAsync t (settled t)) ∧
    out = verifyEntryWithRootAsync ed fs e buildDir rootPublicKey settled

/-- What `verifyCompositionAsync` may settle with: all entries are waited for, and the first that is
rejected rejects the whole. -/
def VerifyCompositionAsync (r : Recipe) (buildDir : Path) (vaultPublicKey : String)
    (result : Except String Verification) : Prop :=
  ∃ outs : List (Except String EntryReport),
    List.Forall₂ (fun e out => EntrySettles ed fs e buildDir r.rootOfTrust.publicKey out)
      r.composition outs ∧
    result = do
      let reports ← outs.mapM id
      concludeVerification ed r vaultPublicKey reports

end Verification

section Agreement

variable {ed fs} {e : RecipeEntry} {buildDir : Path} {key : String} {out : Except String EntryReport}

/-- The manifest is there and does not parse: verification of the entry throws. -/
def Unparsable (fs : FileSystem) (buildDir : Path) (e : RecipeEntry) : Prop :=
  ∃ text err, readText fs buildDir e.manifestPath = some text ∧ parseManifest text = .error err

/-- The source tree is no directory, or has a link that the hash does not skip. -/
def Refused (fs : FileSystem) (buildDir : Path) (e : RecipeEntry) : Prop :=
  ∃ text m tree, readText fs buildDir e.manifestPath = some text ∧ parseManifest text = .ok m ∧
    fs.stat (resolve buildDir e.source) = some tree ∧ ¬ Hashable tree

lemma EntrySettles.exists (ed : Ed25519) (fs : FileSystem) (e : RecipeEntry) (buildDir : Path)
    (key : String) : ∃ out, EntrySettles ed fs e buildDir key out := by
  choose settled hsettled using ContentHashDirAsync.settles
  exact ⟨_, settled, hsettled, rfl⟩

/-- Without a refused tree the two verifications of an entry are one. -/
lemma EntrySettles.eq (h : EntrySettles ed fs e buildDir key out) (hnot : ¬ Refused fs buildDir e) :
    out = verifyEntryWithRoot ed fs e buildDir key := by
  obtain ⟨settled, hsettled, rfl⟩ := h
  unfold verifyEntryWithRootAsync verifyEntryWithRoot
  cases htext : readText fs buildDir e.manifestPath with
  | none => rfl
  | some text =>
    dsimp only
    cases hm : parseManifest text with
    | error err => rfl
    | ok m =>
      rw [ok_bind, ok_bind]
      cases htree : fs.stat (resolve buildDir e.source) with
      | none => rfl
      | some tree =>
        dsimp only
        have hhash : Hashable tree := by
          by_contra hn
          exact hnot ⟨text, m, tree, htext, hm, htree, hn⟩
        rw [(hsettled tree).of_hashable (fs.followed _ _ htree).1 hhash, contentHashDir_ok hhash]
        rfl

lemma verifyEntryWithRoot_unparsable (ed : Ed25519) (key : String) (h : Unparsable fs buildDir e) :
    ∃ err, verifyEntryWithRoot ed fs e buildDir key = .error err := by
  obtain ⟨text, err, htext, hm⟩ := h
  refine ⟨err, ?_⟩
  rw [verifyEntryWithRoot, htext]
  dsimp only
  rw [hm]
  rfl

lemma verifyEntryWithRoot_refused (ed : Ed25519) (key : String) (h : Refused fs buildDir e) :
    ∃ err, verifyEntryWithRoot ed fs e buildDir key = .error err := by
  obtain ⟨text, m, tree, htext, hm, htree, hhash⟩ := h
  obtain ⟨err, herr⟩ := contentHashDir_error hhash
  refine ⟨err, ?_⟩
  rw [verifyEntryWithRoot, htext]
  dsimp only
  rw [hm, ok_bind, htree]
  dsimp only
  rw [herr]
  rfl

/-- A refused tree is reported by the async verification. -/
lemma EntrySettles.refused (h : EntrySettles ed fs e buildDir key out)
    (hrefused : Refused fs buildDir e) : ∃ report, out = .ok report ∧ report.errors ≠ [] := by
  obtain ⟨settled, hsettled, rfl⟩ := h
  obtain ⟨text, m, tree, htext, hm, htree, hhash⟩ := hrefused
  obtain ⟨err, herr⟩ := (hsettled tree).of_not_hashable hhash
  refine ⟨⟨some m, manifestErrors ed e text m key ++
    ["contentHash error for " ++ e.id ++ ": " ++ err]⟩, ?_, ?_⟩
  · rw [verifyEntryWithRootAsync, htext]
    dsimp only
    rw [hm, ok_bind, htree]
    dsimp only
    rw [herr]
    rfl
  · simp

lemma EntrySettles.unparsable (h : EntrySettles ed fs e buildDir key out) {err : String}
    (herr : out = .error err) : Unparsable fs buildDir e := by
  by_cases hrefused : Refused fs buildDir e
  · obtain ⟨report, hreport, _⟩ := h.refused hrefused
    rw [hreport] at herr
    cases herr
  · rw [h.eq hrefused, verifyEntryWithRoot] at herr
    cases htext : readText fs buildDir e.manifestPath with
    | none => rw [htext] at herr; cases herr
    | some text =>
      rw [htext] at herr
      dsimp only at herr
      cases hm : parseManifest text with
      | error err => exact ⟨text, err, htext, hm⟩
      | ok m =>
        rw [hm, ok_bind] at herr
        cases htree : fs.stat (resolve buildDir e.source) with
        | none => rw [htree] at herr; cases herr
        | some tree =>
          have hhash : Hashable tree := by
            by_contra hn
            exact hrefused ⟨text, m, tree, htext, hm, htree, hn⟩
          rw [htree] at herr
          dsimp only at herr
          rw [contentHashDir_ok hhash] at herr
          cases herr

variable {r : Recipe} {vaultPublicKey : String} {result : Except String Verification}

lemma VerifyCompositionAsync.exists (ed : Ed25519) (fs : FileSystem) (r : Recipe) (buildDir : Path)
    (vaultPublicKey : String) : ∃ result, VerifyCompositionAsync ed fs r buildDir vaultPublicKey result := by
  have houts : ∀ es : List RecipeEntry, ∃ outs, List.Forall₂ (fun e out =>
      EntrySettles ed fs e buildDir r.rootOfTrust.publicKey out) es outs := by
    intro es
    induction es with
    | nil => exact ⟨[], .nil⟩
    | cons e rest ih =>
      obtain ⟨out, hout⟩ := EntrySettles.exists ed fs e buildDir r.rootOfTrust.publicKey
      obtain ⟨outs, hrest⟩ := ih
      exact ⟨out :: outs, .cons hout hrest⟩
  obtain ⟨outs, hall⟩ := houts r.composition
  exact ⟨_, outs, hall, rfl⟩

/-- Without a refused tree the two verifications of a composition are one. -/
lemma VerifyCompositionAsync.eq (h : VerifyCompositionAsync ed fs r buildDir vaultPublicKey result)
    (hnot : ∀ e ∈ r.composition, ¬ Refused fs buildDir e) :
    result = verifyComposition ed fs r buildDir vaultPublicKey := by
  obtain ⟨outs, hall, rfl⟩ := h
  rw [verifyComposition, mapM_eq hall fun e he out hout => hout.eq (hnot e he)]

lemma verifyComposition_throws (ed : Ed25519) (vaultPublicKey : String) (he : e ∈ r.composition)
    (h : Unparsable fs buildDir e ∨ Refused fs buildDir e) :
    (verifyComposition ed fs r buildDir vaultPublicKey).toOption = none := by
  have herr : ∃ err, verifyEntryWithRoot ed fs e buildDir r.rootOfTrust.publicKey = .error err := by
    cases h with
    | inl h => exact verifyEntryWithRoot_unparsable ed _ h
    | inr h => exact verifyEntryWithRoot_refused ed _ h
  obtain ⟨err, herr⟩ := herr
  obtain ⟨err, hall⟩ :=
    mapM_error (fun e => verifyEntryWithRoot ed fs e buildDir r.rootOfTrust.publicKey) he herr
  rw [verifyComposition, hall]
  rfl

lemma VerifyCompositionAsync.throws (h : VerifyCompositionAsync ed fs r buildDir vaultPublicKey result)
    (he : e ∈ r.composition) (hun : Unparsable fs buildDir e) : result.toOption = none := by
  obtain ⟨outs, hall, rfl⟩ := h
  obtain ⟨out, hmem, hout⟩ := forall₂_mem hall he
  have hnot : ¬ Refused fs buildDir e := by
    rintro ⟨text, m, tree, htext, hm, _, _⟩
    obtain ⟨text', err, htext', herr⟩ := hun
    rw [htext] at htext'
    cases htext'
    rw [hm] at herr
    cases herr
  obtain ⟨err, herr⟩ := verifyEntryWithRoot_unparsable ed r.rootOfTrust.publicKey hun
  rw [← hout.eq hnot] at herr
  obtain ⟨err, herr⟩ := mapM_error id hmem herr
  rw [herr]
  rfl

/-- Where every manifest that is there parses, a refused tree is reported and nothing is thrown. -/
lemma VerifyCompositionAsync.reports (h : VerifyCompositionAsync ed fs r buildDir vaultPublicKey result)
    (hnot : ∀ e ∈ r.composition, ¬ Unparsable fs buildDir e) (he : e ∈ r.composition)
    (hrefused : Refused fs buildDir e) : result.toOption ≠ none := by
  obtain ⟨outs, hall, rfl⟩ := h
  have hok : ∀ e ∈ r.composition, ∀ out,
      EntrySettles ed fs e buildDir r.rootOfTrust.publicKey out → ∃ report, out = .ok report := by
    intro e he out hout
    cases out with
    | ok report => exact ⟨report, rfl⟩
    | error err => exact absurd (hout.unparsable rfl) (hnot e he)
  obtain ⟨reports, hreports, hsettled⟩ := mapM_ok_of_forall hall hok
  obtain ⟨report, hmem, hout⟩ := forall₂_mem hsettled he
  obtain ⟨report', heq, herrors⟩ := hout.refused hrefused
  cases heq
  have hne : recipeErrors ed r vaultPublicKey ++ reports.flatMap EntryReport.errors ≠ [] := by
    intro hnil
    have hflat := (List.append_eq_nil_iff.mp hnil).2
    exact herrors (List.flatMap_eq_nil_iff.mp hflat report hmem)
  rw [hreports, ok_bind, concludeVerification, if_neg hne]
  simp [pure, Except.pure, Except.toOption]

/-- The two verifications give one result for one composition, or both throw. -/
def VerificationsAgree (ed : Ed25519) (fs : FileSystem) (r : Recipe) (buildDir : Path)
    (vaultPublicKey : String) : Prop :=
  ∀ result, VerifyCompositionAsync ed fs r buildDir vaultPublicKey result →
    (verifyComposition ed fs r buildDir vaultPublicKey).toOption = result.toOption

lemma disagree_of_refused (ed : Ed25519) (vaultPublicKey : String) (he : e ∈ r.composition)
    (hrefused : Refused fs buildDir e) (hnot : ∀ e ∈ r.composition, ¬ Unparsable fs buildDir e) :
    ¬ VerificationsAgree ed fs r buildDir vaultPublicKey := by
  intro hagree
  obtain ⟨result, hresult⟩ := VerifyCompositionAsync.exists ed fs r buildDir vaultPublicKey
  have heq := hagree result hresult
  rw [verifyComposition_throws ed vaultPublicKey he (Or.inr hrefused)] at heq
  exact hresult.reports hnot he hrefused heq.symm

/-- They agree exactly where a manifest does not parse, so that both throw, or every tree that is
reached can be hashed; and such trees have one digest however the walk goes. -/
theorem verifyComposition_agree_iff (ed : Ed25519) (fs : FileSystem) (r : Recipe) (buildDir : Path)
    (vaultPublicKey : String) :
    (VerificationsAgree ed fs r buildDir vaultPublicKey ↔
      (∃ e ∈ r.composition, Unparsable fs buildDir e) ∨
        ∀ e ∈ r.composition, ¬ Refused fs buildDir e) ∧
    (∃ result, VerifyCompositionAsync ed fs r buildDir vaultPublicKey result) ∧
    ∀ (t : SourceTree) (digest : Except String String),
      ContentHashDirAsync t.1 digest ↔ digest = contentHashDir t.1 := by
  refine ⟨⟨?_, ?_⟩, VerifyCompositionAsync.exists ed fs r buildDir vaultPublicKey, ?_⟩
  · intro hagree
    by_contra hn
    push Not at hn
    obtain ⟨hparse, e, he, hrefused⟩ := hn
    exact disagree_of_refused ed vaultPublicKey he hrefused hparse hagree
  · rintro (⟨e, he, hun⟩ | hnot) result hresult
    · rw [verifyComposition_throws ed vaultPublicKey he (Or.inl hun), hresult.throws he hun]
    · rw [hresult.eq hnot]
  · intro t digest
    exact contentHashDirAsync_iff t.2.1 t.2.2

def linkedManifest : String :=
  "\x7b\"manifestVersion\":\"1\",\"id\":\"vivim.law\",\"entry\":\"index.ts\"\x7d"

/-- A build directory whose one source tree has a link. -/
def linkedTree : FileTree :=
  .dir [("build", .dir [("law.json", .file (Sha256.utf8 linkedManifest)), ("src", .dir [("l", .link)])])]

lemma wellFormed_linkedTree : linkedTree.WellFormed := by
  refine .dir (by decide) (by decide) ?_
  simp only [List.forall_mem_singleton]
  refine .dir (by decide) (by decide) ?_
  simp only [List.forall_mem_cons, List.not_mem_nil, false_implies, implies_true, and_true]
  refine ⟨.file _, .dir (by decide) (by decide) ?_⟩
  simpa using FileTree.WellFormed.link

def linkedEntry : RecipeEntry :=
  { id := "vivim.law", source := "src", manifestPath := "law.json", manifestHash := "sha256:",
    contentHash := "sha256:", capabilities := [], contracts := [], bootPhase := 0 }

def linkedRecipe : Recipe where
  name := "linked"
  composition := [linkedEntry]
  rootOfTrust := ⟨"key", "public"⟩
  signature := "signature"
  value := .object [(ofText "recipeVersion", one), (ofText "hashAlgo", jsText "sha256"),
    (ofText "name", jsText "linked"),
    (ofText "composition", .array [.object [(ofText "id", jsText "vivim.law"),
      (ofText "manifestHash", jsText "sha256:"), (ofText "contentHash", jsText "sha256:"),
      (ofText "grant", .object [(ofText "capabilities", .array []), (ofText "contracts", .array [])]),
      (ofText "bootPhase", .number .zero), (ofText "source", jsText "src"),
      (ofText "manifestPath", jsText "law.json")]]),
    (ofText "rootOfTrust", .object [(ofText "keyId", jsText "key"), (ofText "publicKey", jsText "public")]),
    (ofText "signature", jsText "signature")]
  read := rfl

theorem verifyComposition_linked :
    ¬ ∀ (ed : Ed25519) (fs : FileSystem) (r : Recipe) (buildDir : Path) (vaultPublicKey : String),
      VerificationsAgree ed fs r buildDir vaultPublicKey := by
  intro h
  let fs := FileSystem.ofTree linkedTree wellFormed_linkedTree
  have htext : readText fs ["build"] "law.json" = some linkedManifest := by decide +kernel
  have hparse : (parseManifest linkedManifest).toOption.isSome = true := by decide +kernel
  have htree : fs.stat (resolve ["build"] "src") = some (.dir [("l", .link)]) := by
    have hpath : resolve ["build"] "src" = ["build", "src"] := by decide +kernel
    rw [hpath]
    rfl
  have hlink : ¬ Hashable (.dir [("l", .link)]) := by
    intro hfree
    apply hfree ["l"]
    decide
  cases hm : parseManifest linkedManifest with
  | error err =>
    rw [hm] at hparse
    cases hparse
  | ok m =>
    have hrefused : Refused fs ["build"] linkedEntry := ⟨_, m, _, htext, hm, htree, hlink⟩
    apply disagree_of_refused ⟨fun _ _ _ => true⟩ "" (r := linkedRecipe) List.mem_cons_self hrefused
    · intro e he
      rw [List.mem_singleton.mp he]
      rintro ⟨text, err, htext', herr⟩
      have hsame := htext.symm.trans htext'
      cases hsame
      rw [hm] at herr
      cases herr
    · exact h _ _ _ _ _

end Agreement

end VivimOmega.Host

import VivimOmega.Host.Boot

/-! The worker file that a verified composition executes, and the files that its content hash covers. -/

namespace VivimOmega.Host

open Library Library.Json Library.Json.Value Library.Sha256 Contracts FileTree

section Coverage

variable {ed : Ed25519} {fs : FileSystem} {r : Recipe} {e : RecipeEntry} {buildDir : Path} {key : String}

/-- What `new Worker(join(sourceDir, entry))` opens. -/
def readWorker (fs : FileSystem) (sourceDir : Path) (entry : String) : Option (List UInt8) :=
  if Text.endsWith entry "/" then none else fs.readFile (join sourceDir entry)

/-- The worker file is one of those whose path and bytes went into the pinned content hash. -/
def Covered (fs : FileSystem) (e : RecipeEntry) (sourceDir : Path) (entry : String) : Prop :=
  ∃ tree, fs.stat sourceDir = some tree ∧ contentHashDir tree = .ok e.contentHash ∧
    ∃ f ∈ sourceFiles tree, join sourceDir entry = sourceDir ++ f.1 ∧
      readWorker fs sourceDir entry = some f.2

/-- With `.` and `..` resolved the entry is a file in the source directory, by a way with no excluded
name. -/
def EntryInside (fs : FileSystem) (sourceDir : Path) (entry : String) : Prop :=
  (readWorker fs sourceDir entry).isSome = true ∧
    ∃ way, join sourceDir entry = sourceDir ++ way ∧ ∀ n ∈ way, excluded n = false

/-- The manifest of an id: that of its last entry. -/
def manifestOf (fs : FileSystem) (buildDir : Path) (composition : List RecipeEntry) (id : String) :
    Option Manifest :=
  (composition.reverse.find? fun e => e.id = id).bind fun e =>
    (readText fs buildDir e.manifestPath).bind fun text => (parseManifest text).toOption

/-- Every booted entry executes a covered file. -/
def ExecutesCovered (ed : Ed25519) (fs : FileSystem) (r : Recipe) (buildDir : Path) (key : String) :
    Prop :=
  ∀ manifests, verifyComposition ed fs r buildDir key = .ok ⟨manifests, []⟩ →
    ∀ e ∈ r.composition, ∃ m, manifests.get? e.id = some m ∧
      Covered fs e (resolve buildDir e.source) m.entry

lemma readFile_eq_some {p : Path} {bytes : List UInt8} :
    fs.readFile p = some bytes ↔ fs.stat p = some (.file bytes) := by
  unfold FileSystem.readFile
  cases fs.stat p with
  | none => simp
  | some t => cases t <;> simp

lemma readWorker_eq_some {sourceDir : Path} {entry : String} {bytes : List UInt8}
    (h : readWorker fs sourceDir entry = some bytes) :
    fs.stat (join sourceDir entry) = some (.file bytes) := by
  unfold readWorker at h
  split_ifs at h
  exact readFile_eq_some.mp h

/-- In a tree that was hashed, what is covered is what is inside. -/
lemma covered_iff {sourceDir : Path} {entry : String} {tree : FileTree}
    (htree : fs.stat sourceDir = some tree) (hhash : contentHashDir tree = .ok e.contentHash) :
    Covered fs e sourceDir entry ↔ EntryInside fs sourceDir entry := by
  have hwell := (fs.followed _ _ htree).1
  have hclean : Hashable tree := by
    by_contra hn
    obtain ⟨err, herr⟩ := contentHashDir_error hn
    rw [herr] at hhash
    cases hhash
  constructor
  · rintro ⟨tree', htree', _, f, hf, hway, hread⟩
    rw [htree] at htree'
    cases htree'
    refine ⟨by rw [hread]; rfl, f.1, hway, ?_⟩
    exact ((mem_leaves hwell).mp (mem_sourceFiles.mp hf)).1
  · rintro ⟨hread, way, hway, hskip⟩
    obtain ⟨bytes, hbytes⟩ := Option.isSome_iff_exists.mp hread
    have hstat := readWorker_eq_some hbytes
    rw [hway] at hstat
    have hlinks : ∀ p, (p, none) ∉ tree.leaves excluded := by
      cases tree with
      | dir children => exact hclean
      | file bytes => cases hclean
      | link => cases hclean
    have hfind := fs.find_of_stat htree hstat hskip hlinks
    refine ⟨tree, htree, hhash, (way, bytes), mem_sourceFiles.mpr ((mem_leaves hwell).mpr ⟨hskip, ?_⟩),
      hway, hbytes⟩
    rw [hfind]
    rfl

section Verified

/-- Without an error at the end there was none before. -/
lemma concludeVerification_clean {manifests : OrderedMap String Manifest} {outs : List EntryReport}
    (h : concludeVerification ed r key outs = .ok ⟨manifests, []⟩) :
    recipeErrors ed r key = [] ∧ (∀ out ∈ outs, out.errors = []) ∧
      manifests = (r.composition.zip outs).foldl setManifest .empty := by
  unfold concludeVerification at h
  dsimp only at h
  split_ifs at h with hnone
  · obtain ⟨table, _, h⟩ := bind_eq_ok h
    obtain ⟨hrecipe, hentries⟩ := List.append_eq_nil_iff.mp hnone
    exact ⟨hrecipe, List.flatMap_eq_nil_iff.mp hentries,
      (congrArg Verification.manifests (Except.ok.inj h)).symm⟩
  · exact absurd (congrArg Verification.errors (Except.ok.inj h)) hnone

/-- Verification without an error found none in any entry. -/
lemma verified_reports {manifests : OrderedMap String Manifest}
    (h : verifyComposition ed fs r buildDir key = .ok ⟨manifests, []⟩) :
    ∃ outs : List EntryReport, manifests = (r.composition.zip outs).foldl setManifest .empty ∧
      List.Forall₂ (fun e out => verifyEntryWithRoot ed fs e buildDir r.rootOfTrust.publicKey = .ok out ∧
        out.errors = []) r.composition outs := by
  obtain ⟨outs, houts, h⟩ := bind_eq_ok h
  obtain ⟨_, hentries, hmanifests⟩ := concludeVerification_clean h
  exact ⟨outs, hmanifests, forall₂_and (mapM_forall₂ houts) hentries⟩

/-- An entry without errors has its manifest and a tree with the pinned hash. -/
lemma verified_entry {out : EntryReport} (h : verifyEntryWithRoot ed fs e buildDir key = .ok out)
    (hnone : out.errors = []) :
    ∃ text m tree, readText fs buildDir e.manifestPath = some text ∧ parseManifest text = .ok m ∧
      out.manifest = some m ∧ fs.stat (resolve buildDir e.source) = some tree ∧
      contentHashDir tree = .ok e.contentHash := by
  unfold verifyEntryWithRoot at h
  cases htext : readText fs buildDir e.manifestPath with
  | none =>
    rw [htext] at h
    cases h
    cases hnone
  | some text =>
    rw [htext] at h
    dsimp only at h
    obtain ⟨m, hm, h⟩ := bind_eq_ok h
    cases htree : fs.stat (resolve buildDir e.source) with
    | none =>
      rw [htree] at h
      cases h
      simp at hnone
    | some tree =>
      rw [htree] at h
      obtain ⟨digest, hdigest, h⟩ := bind_eq_ok h
      cases h
      have hcontent := (List.append_eq_nil_iff.mp hnone).2
      unfold contentErrors at hcontent
      split_ifs at hcontent with heq
      rw [heq] at hdigest
      exact ⟨text, m, tree, rfl, hm, rfl, rfl, hdigest⟩

/-- The map of manifests holds the last one of each id. -/
lemma get?_manifests {es : List RecipeEntry} {outs : List EntryReport} (id : String)
    (found : OrderedMap String Manifest)
    (h : List.Forall₂ (fun e out => ∃ text m, readText fs buildDir e.manifestPath = some text ∧
      parseManifest text = .ok m ∧ out.manifest = some m) es outs) :
    ((es.zip outs).foldl setManifest found).get? id =
      (manifestOf fs buildDir es id).or (found.get? id) := by
  induction h generalizing found with
  | nil => rfl
  | @cons e out es outs he hrest ih =>
    obtain ⟨text, m, htext, hm, hmanifest⟩ := he
    have hset : setManifest found (e, out) = found.set e.id m := by
      rw [setManifest, hmanifest]
    have hlast : manifestOf fs buildDir (e :: es) id =
        (manifestOf fs buildDir es id).or (if e.id = id then some m else none) := by
      rw [manifestOf, manifestOf, List.reverse_cons, List.find?_append]
      cases hfind : es.reverse.find? fun e => e.id = id with
      | none =>
        have hown : (readText fs buildDir e.manifestPath).bind (fun text =>
            (parseManifest text).toOption) = some m := by
          rw [htext, Option.bind_some, hm]
          rfl
        by_cases hid : e.id = id
        · simp [hid, hown]
        · simp [hid]
      | some e' =>
        have hmem := List.mem_reverse.mp (List.mem_of_find?_eq_some hfind)
        obtain ⟨out', _, text', m', htext', hm', _⟩ := forall₂_mem hrest hmem
        simp only [Option.some_or, Option.bind_some, htext', hm']
        rfl
    rw [List.zip_cons_cons, List.foldl_cons, hset, ih, hlast, Option.or_assoc]
    congr 1
    by_cases hid : e.id = id
    · rw [hid, OrderedMap.get?_set_self, if_pos rfl]
      rfl
    · rw [OrderedMap.get?_set_of_ne _ _ (Ne.symm hid), if_neg hid]
      rfl

lemma verified_manifests {manifests : OrderedMap String Manifest}
    (h : verifyComposition ed fs r buildDir key = .ok ⟨manifests, []⟩) :
    (∀ id, manifests.get? id = manifestOf fs buildDir r.composition id) ∧
      ∀ e ∈ r.composition, (∃ m, manifests.get? e.id = some m) ∧
        ∃ tree, fs.stat (resolve buildDir e.source) = some tree ∧
          contentHashDir tree = .ok e.contentHash := by
  obtain ⟨outs, rfl, hall⟩ := verified_reports h
  have hparsed : List.Forall₂ (fun e out => ∃ text m, readText fs buildDir e.manifestPath = some text ∧
      parseManifest text = .ok m ∧ out.manifest = some m) r.composition outs := by
    refine hall.imp ?_
    rintro e out ⟨hout, hnone⟩
    obtain ⟨text, m, tree, htext, hm, hmanifest, _⟩ := verified_entry hout hnone
    exact ⟨text, m, htext, hm, hmanifest⟩
  have hget : ∀ id, ((r.composition.zip outs).foldl setManifest .empty).get? id =
      manifestOf fs buildDir r.composition id := by
    intro id
    rw [get?_manifests id .empty hparsed, OrderedMap.get?_empty, Option.or_none]
  refine ⟨hget, fun e he => ⟨?_, ?_⟩⟩
  · rw [hget, manifestOf]
    cases hfind : r.composition.reverse.find? fun e' => e'.id = e.id with
    | none =>
      have hne := List.find?_eq_none.mp hfind e (List.mem_reverse.mpr he)
      simp at hne
    | some e' =>
      have hmem := List.mem_reverse.mp (List.mem_of_find?_eq_some hfind)
      obtain ⟨_, _, text, m, htext, hm, _⟩ := forall₂_mem hparsed hmem
      refine ⟨m, ?_⟩
      rw [Option.bind_some, htext, Option.bind_some, hm]
      rfl
  · obtain ⟨out, _, hout, hnone⟩ := forall₂_mem hall he
    obtain ⟨_, _, tree, _, _, _, htree, hdigest⟩ := verified_entry hout hnone
    exact ⟨tree, htree, hdigest⟩

end Verified

/-- A verified composition executes covered files alone exactly where every entry, with `.` and `..`
resolved, is a file inside the source directory that the hash does not exclude. -/
theorem executed_covered_iff (ed : Ed25519) (fs : FileSystem) (r : Recipe) (buildDir : Path)
    (key : String) :
    ExecutesCovered ed fs r buildDir key ↔
      ((∃ manifests, verifyComposition ed fs r buildDir key = .ok ⟨manifests, []⟩) →
        ∀ e ∈ r.composition, ∃ m, manifestOf fs buildDir r.composition e.id = some m ∧
          EntryInside fs (resolve buildDir e.source) m.entry) := by
  constructor
  · rintro h ⟨manifests, hverified⟩ e he
    obtain ⟨hget, hentries⟩ := verified_manifests hverified
    obtain ⟨m, hm, hcovered⟩ := h manifests hverified e he
    obtain ⟨_, tree, htree, hdigest⟩ := hentries e he
    rw [hget] at hm
    exact ⟨m, hm, (covered_iff htree hdigest).mp hcovered⟩
  · intro h manifests hverified e he
    obtain ⟨hget, hentries⟩ := verified_manifests hverified
    obtain ⟨m, hm, hinside⟩ := h ⟨manifests, hverified⟩ e he
    obtain ⟨_, tree, htree, hdigest⟩ := hentries e he
    rw [← hget] at hm
    exact ⟨m, hm, (covered_iff htree hdigest).mpr hinside⟩

/-- A scheme whose signatures name the key. -/
def namingScheme : Ed25519 where
  verify publicKey signature _ := stringOf signature = some ("signed by " ++ publicKey)

def lawManifestValue : Value :=
  .object [(ofText "manifestVersion", jsText "1"), (ofText "id", jsText "vivim.law"),
    (ofText "entry", jsText "index.ts"),
    (ofText "publisher", .object [(ofText "keyId", jsText "key"), (ofText "signature", jsText "signed by public")])]

def lawManifest : Manifest := ⟨"vivim.law", "index.ts", .object (defaults (membersOf lawManifestValue))⟩

def lawManifestText : String := String.ofList lawManifestValue.render

lemma lawManifest_parses : parseManifest lawManifestText = .ok lawManifest := by
  have hplain : Plain lawManifestValue := by
    refine .object (by decide) ?_
    simp only [List.forall_mem_cons, List.not_mem_nil, false_implies, implies_true, and_true]
    refine ⟨.string _, .string _, .string _, .object (by decide) ?_⟩
    simp only [List.forall_mem_cons, List.not_mem_nil, false_implies, implies_true, and_true]
    exact ⟨.string _, .string _⟩
  rw [parseManifest, lawManifestText, jsonParse_render hplain, ok_bind]
  rfl

lemma lawManifest_hash : "sha256:" ++ sha256Text lawManifestText =
    "sha256:7dfaaa09287eac24bc358085b511c2b5544bdace76a793a2925fc47dd0d7f1ef" := by decide +kernel

lemma contentHashDir_empty : contentHashDir (.dir []) =
    .ok "sha256:e3b0c44298fc1c149afbf4c8996fb92427ae41e4649b934ca495991b7852b855" := by decide +kernel

lemma manifestErrors_nil {ed : Ed25519} {e : RecipeEntry} {text key : String} {m : Manifest}
    (hhash : "sha256:" ++ sha256Text text = e.manifestHash)
    (hsigned : verifyJson ed (unsignedManifest m) key (publisherSignature m) = true) :
    manifestErrors ed e text m key = [] := by
  rw [manifestErrors, if_pos hhash, if_pos hsigned]
  rfl

/-- An entry with an empty source directory verifies by its manifest. -/
lemma verifyEntry_empty {fs : FileSystem} {e : RecipeEntry} {buildDir : Path} {text key : String} {m : Manifest}
    (hname : Text.endsWith e.manifestPath "/" = false)
    (hread : fs.readFile (join buildDir e.manifestPath) = some (utf8 text)) (hparse : parseManifest text = .ok m)
    (hmanifest : manifestErrors namingScheme e text m key = [])
    (hsource : fs.stat (resolve buildDir e.source) = some (.dir []))
    (hcontent : e.contentHash = "sha256:e3b0c44298fc1c149afbf4c8996fb92427ae41e4649b934ca495991b7852b855") :
    verifyEntryWithRoot namingScheme fs e buildDir key = .ok ⟨some m, []⟩ := by
  have htext : readText fs buildDir e.manifestPath = some text := by
    rw [readText, if_neg (Bool.eq_false_iff.mp hname), hread, Option.map_some, utf8, Utf8.decode_encoded]
  have hnone : contentErrors e "sha256:e3b0c44298fc1c149afbf4c8996fb92427ae41e4649b934ca495991b7852b855" = [] :=
    if_pos hcontent.symm
  rw [verifyEntryWithRoot, htext]
  simp only [hparse, ok_bind, hsource, contentHashDir_empty, hmanifest, hnone]
  rfl

def escapingManifest : String :=
  "\x7b\"manifestVersion\":\"1\",\"id\":\"vivim.law\",\"entry\":\"../evil.ts\"," ++
  "\"publisher\":\x7b\"keyId\":\"key\",\"signature\":\"signed by public\"\x7d\x7d"

/-- A build directory with a file beside the source directory. -/
def escapingTree : FileTree :=
  .dir [("build", .dir [("law.json", .file (utf8 escapingManifest)), ("evil.ts", .file [0x3B]),
    ("src", .dir [])])]

lemma wellFormed_escapingTree : escapingTree.WellFormed := by
  refine .dir (by decide) (by decide) ?_
  simp only [List.forall_mem_singleton]
  refine .dir (by decide) (by decide) ?_
  simp only [List.forall_mem_cons, List.not_mem_nil, false_implies, implies_true, and_true]
  refine ⟨.file _, .file _, .dir (by decide) (by decide) ?_⟩
  simp

def escapingFiles : FileSystem := .ofTree escapingTree wellFormed_escapingTree

def escapingEntry : RecipeEntry where
  id := "vivim.law"
  source := "src"
  manifestPath := "law.json"
  manifestHash := "sha256:99458ea9ff27890f42c5de088ee4a970519ebf44cc4d50a3d2d64dfd7c4a231c"
  contentHash := "sha256:e3b0c44298fc1c149afbf4c8996fb92427ae41e4649b934ca495991b7852b855"
  capabilities := []
  contracts := []
  bootPhase := 0

def escapingRecipe : Recipe where
  name := "escape"
  composition := [escapingEntry]
  rootOfTrust := ⟨"key", "public"⟩
  signature := "signed by public"
  value := .object [(ofText "recipeVersion", one), (ofText "hashAlgo", jsText "sha256"),
    (ofText "name", jsText "escape"),
    (ofText "composition", .array [.object [(ofText "id", jsText escapingEntry.id),
      (ofText "manifestHash", jsText escapingEntry.manifestHash),
      (ofText "contentHash", jsText escapingEntry.contentHash),
      (ofText "grant", .object [(ofText "capabilities", .array []), (ofText "contracts", .array [])]),
      (ofText "bootPhase", .number .zero), (ofText "source", jsText escapingEntry.source),
      (ofText "manifestPath", jsText escapingEntry.manifestPath)]]),
    (ofText "rootOfTrust", .object [(ofText "keyId", jsText "key"), (ofText "publicKey", jsText "public")]),
    (ofText "signature", jsText "signed by public")]
  read := rfl

/-- The entry `../evil.ts` of a composition that verifies is executed and not covered. -/
theorem executed_escapes :
    ¬ ∀ (ed : Ed25519) (fs : FileSystem) (r : Recipe) (buildDir : Path) (key : String),
      ExecutesCovered ed fs r buildDir key := by
  intro h
  have hrun : (verifyComposition namingScheme escapingFiles escapingRecipe ["build"] "public").toOption.map
      (fun v => (v.errors, (v.manifests.get? "vivim.law").map Manifest.entry)) =
        some ([], some "../evil.ts") := by decide +kernel
  obtain ⟨⟨manifests, errors⟩, hverified, hresult⟩ := ok_of_toOption hrun
  obtain ⟨rfl, hentry⟩ := Prod.mk.inj hresult
  obtain ⟨m, hm, _, _, _, f, _, hway, _⟩ :=
    h namingScheme escapingFiles escapingRecipe ["build"] "public" manifests hverified escapingEntry
      List.mem_cons_self
  obtain ⟨m', hm', hescape⟩ := Option.map_eq_some_iff.mp hentry
  have hsame : m = m' := Option.some.inj (hm.symm.trans hm')
  rw [hsame, hescape] at hway
  have hsource : resolve ["build"] escapingEntry.source = ["build", "src"] := by decide
  have hjoin : join ["build", "src"] "../evil.ts" = ["build", "evil.ts"] := by decide
  rw [hsource, hjoin] at hway
  have hsecond := congrArg (fun p : Path => p[1]?) hway
  simp at hsecond

end Coverage

end VivimOmega.Host

import VivimOmega.Forge.Author
import VivimOmega.Library.Collect

/-! The emission of a prepared spec: its writes are confined to the scratch root, and are exact, as long as no two
spellings name one file. -/

namespace VivimOmega.Forge

open Library Library.Json

section Emission

def bytesOf (text : JsString) : List UInt8 := Sha256.utf8 (toText text)

def targetOf (dir : String) (file : RecordedFile) : Path := join (resolve [] dir) (toText file.path)

structure ProposalRow where
  id : JsString
  rev : Value

structure Report where
  inputHash : String
  outputHash : String
  outputDir : String
  emitted : List JsString
  proposalRows : List ProposalRow

inductive Outcome
  | emitted (report : Report)
  | stopped (s : Stop)

/-- What lies on the disk, and the files and directories that were made on the way there. -/
structure Writes where
  disk : Disk
  made : List Path

/-- The first loop of the step k, with the text of what it throws. -/
def emitFiles (m : Machine) (dir : String) : ℕ → List (RecordedFile × JsString) → Writes → Writes × Option String
  | _, [], w => (w, none)
  | i, (file, bytes) :: rest, w =>
    let target := targetOf dir file
    match m.mkdirFails i, w.disk.mkdirAll target.dropLast with
    | some e, _ => (w, some e)
    | none, .error e => (w, some e)
    | none, .ok parent =>
      let made := w.made ++ w.disk.missing target.dropLast
      match m.writeFails i, parent.writeFile target (bytesOf bytes) with
      | some e, _ => (⟨parent, made⟩, some e)
      | none, .error e => (⟨parent, made⟩, some e)
      | none, .ok disk => emitFiles m dir (i + 1) rest ⟨disk, made ++ [target]⟩

/-- The row that the vault reads back, if it is the artifact. -/
def readBack (artifact : Value) (answer : PortAnswer) : Except Stop (Option Value) :=
  match answer with
  | .threw e => .error (.threw e)
  | .refused _ _ => return none
  | .ok row =>
    if isFalsy row then return none
    else do
      let stored ← orThrow (canonicalJson (optionalProperty row "data"))
      let proposed ← orThrow (canonicalJson artifact)
      return if stored = proposed then some row else none

def rowId (file : RecordedFile) : JsString := ofText ("file:" ++ FORGE_AUTHOR_PLUGIN_ID ++ "/") ++ file.path

/-- The second loop of the step k. -/
def ledger (m : Machine) (version : JsString) : ℕ → List RecordedFile → Except Stop (List ProposalRow)
  | _, [] => return []
  | i, file :: rest =>
    match m.append i with
    | .threw e => .error (.threw e)
    | .refused err detail => refuse "SPEC_LEDGER_REFUSED" ("vault.append@1 refused the proposal row for " ++
        toText file.path ++ ": " ++ err ++ ": " ++ detail ++ " — the emission is not ledgered, treat it as unproposed")
    | .ok _ => do
      match ← readBack (proposalArtifactFor file version) (m.get i) with
      | none => refuse "SPEC_LEDGER_REFUSED" ("proposal row " ++ toText (rowId file) ++
          " did not read back byte-identical from ns proposal — the ledger is the proposal's ground, refuse rather " ++
          "than trust an unsynced write")
      | some row =>
        let rows ← ledger m version (i + 1) rest
        return ⟨rowId file, optionalProperty row "rev"⟩ :: rows

/-- What an emission came to, what it left, and whether it had come to its writes. -/
structure Emission where
  outcome : Outcome
  writes : Writes
  emitting : Bool

def emit (m : Machine) (plan : Plan) (disk : Disk) : Emission :=
  let (writes, failed) := emitFiles m plan.dir 0 plan.rendered ⟨disk, []⟩
  match failed with
  | some e => ⟨.stopped (.threw e), writes, true⟩
  | none =>
    let files := plan.rendered.map Prod.fst
    match ledger m plan.version 0 files, emissionOutputHash files with
    | .error s, _ => ⟨.stopped s, writes, true⟩
    | .ok _, .error e => ⟨.stopped (.threw e), writes, true⟩
    | .ok rows, .ok outputHash =>
      ⟨.emitted ⟨plan.inputHash, outputHash, plan.dir, files.map RecordedFile.path, rows⟩, writes, true⟩

def authorInit (m : Machine) (payload : Value) (disk : Disk) : Emission :=
  match prepare m payload with
  | .error s => ⟨.stopped s, ⟨disk, []⟩, false⟩
  | .ok plan =>
    match (do checkFresh disk plan.dir; lawSelfCheck m) with
    | .error s => ⟨.stopped s, ⟨disk, []⟩, false⟩
    | .ok () => emit m plan disk

end Emission

section Law

/-- A row that was read back. -/
def ReadBack (m : Machine) (version : JsString) (f : RecordedFile) (row : ProposalRow) : Prop :=
  ∃ i answer, m.get i = .ok answer ∧ row = ⟨rowId f, optionalProperty answer "rev"⟩ ∧
    canonicalJson (optionalProperty answer "data") = canonicalJson (proposalArtifactFor f version)

/-- The law of an emission, of which a report says that nothing was refused. -/
structure EmissionLaw (m : Machine) (payload : Value) (disk : Disk) : Prop where
  untouched : (authorInit m payload disk).emitting = false →
    (authorInit m payload disk).writes.disk = disk ∧ (authorInit m payload disk).writes.made = []
  exact : ∀ report, (authorInit m payload disk).outcome = .emitted report → ∃ plan, prepare m payload = .ok plan ∧
    report.outputDir = plan.dir ∧ m.tmp <+: resolve [] report.outputDir ∧
      (∀ f ∈ plan.rendered, ofText (sha256Of f.2) = f.1.contentHash ∧
        (authorInit m payload disk).writes.disk.get? (targetOf report.outputDir f.1) = some (.file (bytesOf f.2))) ∧
      List.Forall₂ (fun f row => ReadBack m plan.version f.1 row) plan.rendered report.proposalRows
  confined : ∀ p ∈ (authorInit m payload disk).writes.made, m.tmp <+: p

def filesOf (payload : Value) : List Value := (arrayOf (optionalProperty (optionalProperty payload "spec") "files")).getD []

def textAt (v : Value) (name : String) : JsString := (textOf (optionalProperty v name)).getD []

/-- The output directory lies inside the scratch root, whose parents are there, and two entries whose paths lead to one
file have the same bytes. -/
structure Exact (m : Machine) (payload : Value) (disk : Disk) : Prop where
  inside : ∀ dir, resolveOutputDir m (optionalProperty payload "spec") = .ok dir → m.tmp <+: resolve [] dir
  there : ∀ p, p <+: m.tmp → p ≠ m.tmp → disk.get? p ≠ none
  unclobbered : ∀ x ∈ filesOf payload, ∀ y ∈ filesOf payload, ∀ hash,
    specInputHash (optionalProperty payload "spec") = .ok hash →
      join [] (toText (textAt x "path")) = join [] (toText (textAt y "path")) →
        bytesOf (renderTemplate (textAt x "template") hash) = bytesOf (renderTemplate (textAt y "template") hash)

variable {m : Machine} {payload : Value} {disk : Disk} {plan : Plan}

section Paths

/-- What a path without a parent segment adds does not depend on where it starts. -/
lemma foldl_segments {parts : List String} (h : ∀ part ∈ parts, part ≠ "..") (base : Path) :
    parts.foldl (fun here part =>
      if part = "" ∨ part = "." then here else if part = ".." then here.dropLast else here ++ [part]) base =
    base ++ parts.foldl (fun here part =>
      if part = "" ∨ part = "." then here else if part = ".." then here.dropLast else here ++ [part]) [] := by
  induction parts generalizing base with
  | nil => simp
  | cons part rest ih =>
    obtain ⟨hpart, hrest⟩ := List.forall_mem_cons.mp h
    rw [List.foldl_cons, List.foldl_cons, if_neg hpart, if_neg hpart]
    split_ifs
    · exact ih hrest base
    · rw [ih hrest (base ++ [part]), ih hrest ([] ++ [part]), List.append_assoc, List.nil_append]

lemma join_safe {p : String} (h : pathIsSafe p = true) (base : Path) : join base p = base ++ join [] p := by
  refine foldl_segments ?_ base
  intro part hpart hparent
  obtain ⟨segment, hsegment, rfl⟩ := List.mem_map.mp hpart
  have hdots : segment = ['.', '.'] := String.ofList_injective hparent
  have hmem : ['.', '.'] ∈ pathSegments p := by
    refine List.mem_flatMap.mpr ⟨segment, hsegment, ?_⟩
    rw [hdots]
    decide
  have hall := (Bool.and_eq_true_iff.mp h).2
  have hnot := List.all_eq_true.mp hall _ hmem
  exact absurd hnot (by decide)

end Paths

section Prepared

variable {α β : Type}

lemma bind_ok {x : Except Stop α} {f : α → Except Stop β} {b : β} (h : x >>= f = .ok b) :
    ∃ a, x = .ok a ∧ f a = .ok b := by
  cases x with
  | error e => cases h
  | ok a => exact ⟨a, rfl, h⟩

lemma demand_ok {holds : Bool} {rule detail : String} {u : Unit} (h : demand holds rule detail = .ok u) : holds = true := by
  cases holds with
  | true => rfl
  | false => cases h

lemma orThrow_ok {x : Except String α} {a : α} (h : orThrow x = .ok a) : x = .ok a := by
  cases x with
  | error e => cases h
  | ok b => cases h; rfl

lemma mapM_stop {f : α → Except Stop β} {xs : List α} {ys : List β} (h : xs.mapM f = .ok ys) :
    List.Forall₂ (fun x y => f x = .ok y) xs ys := by
  induction xs generalizing ys with
  | nil =>
    cases h
    exact .nil
  | cons x rest ih =>
    rw [List.mapM_cons] at h
    obtain ⟨y, hy, h⟩ := bind_ok h
    obtain ⟨zs, hzs, h⟩ := bind_ok h
    cases h
    exact .cons hy (ih hzs)

lemma checkFile_ok {x : Value} {f : RecordedFile} (h : checkFile x = .ok f) :
    f.path = textAt x "path" ∧ f.template = textAt x "template" ∧ pathIsSafe (toText f.path) = true := by
  unfold checkFile at h
  split_ifs at h
  · cases h
  split at h
  · next path template contentHash hpath htemplate _ =>
    obtain ⟨_, _, h⟩ := bind_ok h
    obtain ⟨_, hsafe, h⟩ := bind_ok h
    cases h
    exact ⟨by simp [textAt, hpath, textOf], by simp [textAt, htemplate, textOf], demand_ok hsafe⟩
  · obtain ⟨_, _, h⟩ := bind_ok h
    cases h

lemma checkFiles_ok {seen : List JsString} {xs : List Value} {files : List RecordedFile}
    (h : checkFiles seen xs = .ok files) : List.Forall₂ (fun x f => checkFile x = .ok f) xs files := by
  induction xs generalizing seen files with
  | nil =>
    cases h
    exact .nil
  | cons x rest ih =>
    obtain ⟨file, hfile, h⟩ := bind_ok h
    obtain ⟨_, _, h⟩ := bind_ok h
    obtain ⟨more, hmore, h⟩ := bind_ok h
    cases h
    exact .cons hfile (ih hmore)

lemma renderPinned_ok {hash : String} {f : RecordedFile} {r : RecordedFile × JsString} (h : renderPinned hash f = .ok r) :
    r = (f, renderTemplate f.template hash) ∧ ofText (sha256Of r.2) = f.contentHash := by
  unfold renderPinned at h
  dsimp only at h
  split_ifs at h with hpin
  · cases h
  · cases h
    exact ⟨rfl, not_not.mp hpin⟩

/-- What a plan has of the entry of the spec that a rendered file comes from. -/
def FromEntry (hash : String) (x : Value) (r : RecordedFile × JsString) : Prop :=
  r.1.path = textAt x "path" ∧ r.2 = renderTemplate (textAt x "template") hash ∧ pathIsSafe (toText r.1.path) = true ∧
    ofText (sha256Of r.2) = r.1.contentHash

lemma rendered_from {hash : String} {xs : List Value} {files : List RecordedFile} {rendered : List (RecordedFile × JsString)}
    (hread : List.Forall₂ (fun x f => checkFile x = .ok f) xs files)
    (hpinned : List.Forall₂ (fun f r => renderPinned hash f = .ok r) files rendered) :
    List.Forall₂ (FromEntry hash) xs rendered := by
  induction hread generalizing rendered with
  | nil =>
    cases hpinned
    exact .nil
  | cons hx _ ih =>
    cases hpinned with
    | cons hr hrest =>
      obtain ⟨hpath, htemplate, hsafe⟩ := checkFile_ok hx
      obtain ⟨rfl, hpin⟩ := renderPinned_ok hr
      exact .cons ⟨hpath, by rw [htemplate], hsafe, hpin⟩ (ih hrest)

lemma arrayIn_ok {v : Value} {detail : String} {items : List Value} (h : arrayIn v detail = .ok items) :
    v = .array items := by
  cases v <;> cases h
  rfl

lemma checkStructure_ok {spec : Value} {files : List RecordedFile} (h : checkStructure spec = .ok files) :
    ∃ xs, optionalProperty spec "files" = .array xs ∧ xs ≠ [] ∧ List.Forall₂ (fun x f => checkFile x = .ok f) xs files := by
  unfold checkStructure at h
  obtain ⟨xs, hxs, h⟩ := bind_ok h
  obtain ⟨_, hne, h⟩ := bind_ok h
  obtain ⟨found, hfound, h⟩ := bind_ok h
  obtain ⟨_, _, h⟩ := bind_ok h
  obtain ⟨_, _, h⟩ := bind_ok h
  obtain ⟨_, _, h⟩ := bind_ok h
  obtain ⟨_, _, h⟩ := bind_ok h
  cases h
  refine ⟨xs, arrayIn_ok hxs, ?_, checkFiles_ok hfound⟩
  have hnil := demand_ok hne
  rintro rfl
  cases hnil

lemma checkRequest_ok {dir : String} (h : checkRequest m payload = .ok dir) :
    resolveOutputDir m (optionalProperty payload "spec") = .ok dir := by
  unfold checkRequest at h
  obtain ⟨_, _, h⟩ := bind_ok h
  obtain ⟨_, _, h⟩ := bind_ok h
  obtain ⟨_, _, h⟩ := bind_ok h
  obtain ⟨_, _, h⟩ := bind_ok h
  obtain ⟨_, _, h⟩ := bind_ok h
  obtain ⟨_, _, h⟩ := bind_ok h
  exact h

lemma prepare_ok (h : prepare m payload = .ok plan) :
    resolveOutputDir m (optionalProperty payload "spec") = .ok plan.dir ∧
      specInputHash (optionalProperty payload "spec") = .ok plan.inputHash ∧ filesOf payload ≠ [] ∧
        List.Forall₂ (FromEntry plan.inputHash) (filesOf payload) plan.rendered := by
  unfold prepare at h
  obtain ⟨dir, hdir, h⟩ := bind_ok h
  obtain ⟨version, _, h⟩ := bind_ok h
  obtain ⟨pinned, _, h⟩ := bind_ok h
  obtain ⟨files, hfiles, h⟩ := bind_ok h
  obtain ⟨hash, hhash, h⟩ := bind_ok h
  obtain ⟨_, _, h⟩ := bind_ok h
  obtain ⟨rendered, hrendered, h⟩ := bind_ok h
  cases h
  obtain ⟨xs, hxs, hne, hread⟩ := checkStructure_ok hfiles
  have hfilesOf : filesOf payload = xs := by
    unfold filesOf
    rw [hxs]
    rfl
  rw [hfilesOf]
  exact ⟨checkRequest_ok hdir, orThrow_ok hhash, hne, rendered_from hread (mapM_stop hrendered)⟩

end Prepared

section Writing

/-- An emission goes on from what lies on the disk. -/
structure Kept (w w' : Writes) : Prop where
  there : ∀ p, w.disk.get? p ≠ none → w'.disk.get? p ≠ none
  made : ∀ p ∈ w.made, p ∈ w'.made

lemma Kept.refl (w : Writes) : Kept w w := ⟨fun _ h => h, fun _ h => h⟩

lemma Kept.trans {u v w : Writes} (huv : Kept u v) (hvw : Kept v w) : Kept u w :=
  ⟨fun p h => hvw.there p (huv.there p h), fun p h => hvw.made p (huv.made p h)⟩

lemma kept_parent {w : Writes} {p : Path} {parent : Disk} (h : w.disk.mkdirAll p = .ok parent) :
    Kept w ⟨parent, w.made ++ w.disk.missing p⟩ := by
  refine ⟨fun q hq => ?_, fun q hq => List.mem_append_left _ hq⟩
  obtain ⟨x, hx⟩ := Option.ne_none_iff_exists'.mp hq
  rw [Disk.get?_mkdirAll_of_some h hx]
  exact Option.some_ne_none x

lemma kept_file {w : Writes} {p : Path} {bytes : List UInt8} {disk : Disk} (h : w.disk.writeFile p bytes = .ok disk) :
    Kept w ⟨disk, w.made ++ [p]⟩ := by
  refine ⟨fun q hq => ?_, fun q hq => List.mem_append_left _ hq⟩
  rw [Disk.get?_writeFile h]
  split_ifs
  · exact Option.some_ne_none _
  · exact hq

/-- By the files: a relation that each write keeps holds of what an emission leaves. -/
lemma emitFiles_induct {P : Writes → Prop} {dir : String} {rest : List (RecordedFile × JsString)} {i : ℕ} {w : Writes}
    (hw : P w)
    (hparent : ∀ f ∈ rest, ∀ w parent, P w → w.disk.mkdirAll (targetOf dir f.1).dropLast = .ok parent →
      P ⟨parent, w.made ++ w.disk.missing (targetOf dir f.1).dropLast⟩)
    (hfile : ∀ f ∈ rest, ∀ w disk, P w → w.disk.writeFile (targetOf dir f.1) (bytesOf f.2) = .ok disk →
      P ⟨disk, w.made ++ [targetOf dir f.1]⟩) : P (emitFiles m dir i rest w).1 := by
  induction rest generalizing i w with
  | nil => exact hw
  | cons f rest ih =>
    unfold emitFiles
    dsimp only
    split
    · exact hw
    · exact hw
    · next parent _ hmkdir =>
      have hmade := hparent f List.mem_cons_self w parent hw hmkdir
      split
      · exact hmade
      · exact hmade
      · next disk _ hwrite =>
        exact ih (hfile f List.mem_cons_self _ disk hmade hwrite)
          (fun g hg => hparent g (List.mem_cons_of_mem _ hg)) fun g hg => hfile g (List.mem_cons_of_mem _ hg)

lemma emitFiles_kept (m : Machine) (dir : String) (i : ℕ) (rest : List (RecordedFile × JsString)) (w : Writes) :
    Kept w (emitFiles m dir i rest w).1 :=
  emitFiles_induct (P := Kept w) (Kept.refl w) (fun _ _ _ _ h hmkdir => h.trans (kept_parent hmkdir))
    fun _ _ _ _ h hwrite => h.trans (kept_file hwrite)

lemma target_confined {dir : String} {f : RecordedFile} (hdir : m.tmp <+: resolve [] dir)
    (hsafe : pathIsSafe (toText f.path) = true) : m.tmp <+: targetOf dir f := by
  unfold targetOf
  rw [join_safe hsafe]
  exact hdir.trans (List.prefix_append _ _)

lemma made_confined {dir : String} {rest : List (RecordedFile × JsString)} {i : ℕ} {w : Writes}
    (hdir : m.tmp <+: resolve [] dir) (hsafe : ∀ f ∈ rest, pathIsSafe (toText f.1.path) = true)
    (hthere : ∀ p, p <+: m.tmp → p ≠ m.tmp → w.disk.get? p ≠ none) (hmade : ∀ p ∈ w.made, m.tmp <+: p) :
    ∀ p ∈ (emitFiles m dir i rest w).1.made, m.tmp <+: p := by
  have hinv : (∀ p ∈ (emitFiles m dir i rest w).1.made, m.tmp <+: p) ∧
      ∀ p, p <+: m.tmp → p ≠ m.tmp → (emitFiles m dir i rest w).1.disk.get? p ≠ none := by
    refine emitFiles_induct
      (P := fun w => (∀ p ∈ w.made, m.tmp <+: p) ∧ ∀ p, p <+: m.tmp → p ≠ m.tmp → w.disk.get? p ≠ none)
      ⟨hmade, hthere⟩ ?_ ?_
    · intro f hf w parent hw hmkdir
      refine ⟨?_, fun p hp hne => (kept_parent hmkdir).there p (hw.2 p hp hne)⟩
      rw [List.forall_mem_append]
      refine ⟨hw.1, fun q hq => ?_⟩
      obtain ⟨hpre, hnone⟩ := Disk.mem_missing.mp hq
      have hq : q <+: targetOf dir f.1 := hpre.trans (List.dropLast_prefix _)
      obtain hle | hle := List.prefix_or_prefix_of_prefix (target_confined hdir (hsafe f hf)) hq
      · exact hle
      · by_cases heq : q = m.tmp
        · exact heq ▸ List.prefix_rfl
        · exact absurd hnone (hw.2 q hle heq)
    · intro f hf w disk hw hwrite
      refine ⟨?_, fun p hp hne => (kept_file hwrite).there p (hw.2 p hp hne)⟩
      rw [List.forall_mem_append, List.forall_mem_singleton]
      exact ⟨hw.1, target_confined hdir (hsafe f hf)⟩
  exact hinv.1

/-- By the files, where those that are written already stay as they are: a later one with their path has their bytes. -/
lemma emitFiles_written {dir : String} {done rest : List (RecordedFile × JsString)} {i : ℕ} {w : Writes}
    (hend : (emitFiles m dir i rest w).2 = none)
    (hdone : ∀ g ∈ done, w.disk.get? (targetOf dir g.1) = some (.file (bytesOf g.2)))
    (hsame : ∀ f ∈ done ++ rest, ∀ g ∈ done ++ rest, targetOf dir f.1 = targetOf dir g.1 → bytesOf f.2 = bytesOf g.2) :
    ∀ g ∈ done ++ rest, (emitFiles m dir i rest w).1.disk.get? (targetOf dir g.1) = some (.file (bytesOf g.2)) := by
  induction rest generalizing done i w with
  | nil =>
    rw [List.append_nil]
    exact hdone
  | cons f rest ih =>
    have hsplit : done ++ f :: rest = (done ++ [f]) ++ rest := List.append_cons done f rest
    unfold emitFiles at hend ⊢
    dsimp only at hend ⊢
    split at hend
    · cases hend
    · cases hend
    · next parent _ hmkdir =>
      split at hend
      · cases hend
      · cases hend
      · next disk _ hwrite =>
        rw [hsplit] at hsame ⊢
        refine ih hend ?_ hsame
        intro g hg
        rw [Disk.get?_writeFile hwrite]
        split_ifs with htarget
        · have hbytes := hsame g (List.mem_append_left _ hg) f
            (List.mem_append_left _ (List.mem_append_right _ List.mem_cons_self)) htarget
          rw [hbytes]
        · obtain hold | hnew := List.mem_append.mp hg
          · exact Disk.get?_mkdirAll_of_some hmkdir (hdone g hold)
          · exact absurd (by rw [List.mem_singleton.mp hnew]) htarget

lemma readBack_ok {artifact row : Value} {answer : PortAnswer} (h : readBack artifact answer = .ok (some row)) :
    answer = .ok row ∧ canonicalJson (optionalProperty row "data") = canonicalJson artifact := by
  cases answer with
  | threw e => cases h
  | refused err detail => cases h
  | ok value =>
    unfold readBack at h
    dsimp only at h
    split_ifs at h
    · cases h
    · obtain ⟨stored, hstored, h⟩ := bind_ok h
      obtain ⟨proposed, hproposed, h⟩ := bind_ok h
      split_ifs at h with heq
      · cases h
        refine ⟨rfl, ?_⟩
        rw [orThrow_ok hstored, orThrow_ok hproposed, heq]
      · cases h

lemma ledger_ok {version : JsString} {files : List RecordedFile} {i : ℕ} {rows : List ProposalRow}
    (h : ledger m version i files = .ok rows) : List.Forall₂ (ReadBack m version) files rows := by
  induction files generalizing i rows with
  | nil =>
    cases h
    exact .nil
  | cons f rest ih =>
    unfold ledger at h
    split at h
    · cases h
    · cases h
    · obtain ⟨answer, hanswer, h⟩ := bind_ok h
      cases answer with
      | none => cases h
      | some row =>
        obtain ⟨more, hmore, h⟩ := bind_ok h
        cases h
        obtain ⟨hget, hdata⟩ := readBack_ok hanswer
        exact .cons ⟨i, row, hget, rfl, hdata⟩ (ih hmore)

end Writing

section Emitted

/-- An emission stops before its writes, or comes to them with a plan. -/
lemma authorInit_cases (m : Machine) (payload : Value) (disk : Disk) :
    (∃ s, authorInit m payload disk = ⟨.stopped s, ⟨disk, []⟩, false⟩) ∨
      ∃ plan, prepare m payload = .ok plan ∧ authorInit m payload disk = emit m plan disk := by
  unfold authorInit
  split
  · next s _ => exact .inl ⟨s, rfl⟩
  · next plan hplan =>
    split
    · next s _ => exact .inl ⟨s, rfl⟩
    · exact .inr ⟨plan, hplan, rfl⟩

lemma authorInit_prepared (h : prepare m payload = .ok plan) (hfresh : checkFresh disk plan.dir = .ok ())
    (hlaw : lawSelfCheck m = .ok ()) : authorInit m payload disk = emit m plan disk := by
  unfold authorInit
  rw [h]
  dsimp only
  rw [hfresh, hlaw]
  rfl

/-- The writes of an emission are those of its first loop. -/
lemma emit_writes (m : Machine) (plan : Plan) (disk : Disk) :
    (emit m plan disk).writes = (emitFiles m plan.dir 0 plan.rendered ⟨disk, []⟩).1 ∧ (emit m plan disk).emitting = true := by
  unfold emit
  split
  next writes failed hloop =>
  rw [hloop]
  cases failed with
  | some e => exact ⟨rfl, rfl⟩
  | none =>
    dsimp only
    split
    · exact ⟨rfl, rfl⟩
    · exact ⟨rfl, rfl⟩
    · exact ⟨rfl, rfl⟩

lemma emit_reported {rows : List ProposalRow} {hash : String}
    (hfiles : (emitFiles m plan.dir 0 plan.rendered ⟨disk, []⟩).2 = none)
    (hrows : ledger m plan.version 0 (plan.rendered.map Prod.fst) = .ok rows)
    (hhash : emissionOutputHash (plan.rendered.map Prod.fst) = .ok hash) :
    ∃ report, (emit m plan disk).outcome = .emitted report := by
  unfold emit
  dsimp only
  rw [hfiles]
  dsimp only
  rw [hrows, hhash]
  exact ⟨_, rfl⟩

lemma emit_report {report : Report} (h : (emit m plan disk).outcome = .emitted report) :
    (emitFiles m plan.dir 0 plan.rendered ⟨disk, []⟩).2 = none ∧ report.outputDir = plan.dir ∧
      ledger m plan.version 0 (plan.rendered.map Prod.fst) = .ok report.proposalRows := by
  unfold emit at h
  split at h
  next writes failed hloop =>
  rw [hloop]
  cases failed with
  | some e => cases h
  | none =>
    dsimp only at h
    split at h
    · cases h
    · cases h
    · next rows outputHash hrows _ =>
      cases h
      exact ⟨rfl, rfl, hrows⟩

lemma forall₂_right {α β : Type} {R : α → β → Prop} {xs : List α} {ys : List β} (h : List.Forall₂ R xs ys) {y : β}
    (hy : y ∈ ys) : ∃ x ∈ xs, R x y :=
  forall₂_mem h.flip hy

lemma law_of_exact (h : Exact m payload disk) : EmissionLaw m payload disk := by
  obtain ⟨s, heq⟩ | ⟨plan, hplan, heq⟩ := authorInit_cases m payload disk
  · refine ⟨fun _ => by rw [heq]; exact ⟨rfl, rfl⟩, fun report hreport => ?_, fun p hp => ?_⟩
    · rw [heq] at hreport
      cases hreport
    · rw [heq] at hp
      cases hp
  · obtain ⟨hdir, hhash, _, hentries⟩ := prepare_ok hplan
    have hinside := h.inside plan.dir hdir
    have hsafe : ∀ f ∈ plan.rendered, pathIsSafe (toText f.1.path) = true := fun f hf => by
      obtain ⟨_, _, hentry⟩ := forall₂_right hentries hf
      exact hentry.2.2.1
    obtain ⟨hwrites, hemitting⟩ := emit_writes m plan disk
    refine ⟨fun hnot => ?_, fun report hreport => ?_, ?_⟩
    · rw [heq, hemitting] at hnot
      cases hnot
    · rw [heq] at hreport
      obtain ⟨hend, hout, hrows⟩ := emit_report hreport
      refine ⟨plan, hplan, hout, hout ▸ hinside, fun f hf => ?_, ?_⟩
      · obtain ⟨_, _, hentry⟩ := forall₂_right hentries hf
        refine ⟨hentry.2.2.2, ?_⟩
        have hsame : ∀ f ∈ [] ++ plan.rendered, ∀ g ∈ [] ++ plan.rendered,
            targetOf plan.dir f.1 = targetOf plan.dir g.1 → bytesOf f.2 = bytesOf g.2 := by
          intro f hf g hg htarget
          obtain ⟨x, hx, hpx, htx, hsx, _⟩ := forall₂_right hentries hf
          obtain ⟨y, hy, hpy, hty, hsy, _⟩ := forall₂_right hentries hg
          unfold targetOf at htarget
          rw [join_safe hsx, join_safe hsy] at htarget
          have hpaths := List.append_cancel_left htarget
          rw [hpx, hpy] at hpaths
          rw [htx, hty]
          exact h.unclobbered x hx y hy plan.inputHash hhash hpaths
        rw [hout, heq, hwrites]
        exact emitFiles_written hend (List.forall_mem_nil _) hsame f hf
      · exact List.forall₂_map_left_iff.mp (ledger_ok hrows)
    · rw [heq, hwrites]
      exact made_confined hinside hsafe h.there (List.forall_mem_nil _)

/-- The directories that miss on the way to the first file are made. -/
lemma missing_made {dir : String} {f : RecordedFile × JsString} {rest : List (RecordedFile × JsString)} {i : ℕ} {w : Writes}
    (hend : (emitFiles m dir i (f :: rest) w).2 = none) {p : Path} (hp : p ∈ w.disk.missing (targetOf dir f.1).dropLast) :
    p ∈ (emitFiles m dir i (f :: rest) w).1.made := by
  unfold emitFiles at hend ⊢
  dsimp only at hend ⊢
  split at hend
  · cases hend
  · cases hend
  · split at hend
    · cases hend
    · cases hend
    · exact (emitFiles_kept _ _ _ _ _).made p (List.mem_append_left _ (List.mem_append_right _ hp))

lemma prefix_dropLast {α : Type} {p q t : List α} (hpq : p <+: q) (hne : p ≠ q) (hqt : q <+: t) : p <+: t.dropLast := by
  obtain ⟨r, rfl⟩ := hpq
  obtain ⟨s, rfl⟩ := hqt
  have hr : r ≠ [] := fun h => hne (by rw [h, List.append_nil])
  rw [List.append_assoc, List.dropLast_append_of_ne_nil (List.append_ne_nil_of_left_ne_nil hr s)]
  exact List.prefix_append _ _

/-- What an emission that is reported says of its output directory and of the paths that lead to one file. -/
lemma exact_of_law {report : Report} (hreport : (authorInit m payload disk).outcome = .emitted report)
    (h : EmissionLaw m payload disk) : Exact m payload disk := by
  obtain ⟨plan, hplan, hout, hinside, hfiles, _⟩ := h.exact report hreport
  obtain ⟨hdir, hhash, hne, hentries⟩ := prepare_ok hplan
  rw [hout] at hinside hfiles
  refine ⟨fun dir hdir' => ?_, fun p hp hne' hnone => ?_, fun x hx y hy hash hhash' hpaths => ?_⟩
  · rw [hdir] at hdir'
    cases hdir'
    exact hinside
  · obtain ⟨s, heq⟩ | ⟨plan', hplan', heq⟩ := authorInit_cases m payload disk
    · rw [heq] at hreport
      cases hreport
    · rw [hplan] at hplan'
      cases hplan'
      rw [heq] at hreport
      obtain ⟨hend, _, _⟩ := emit_report hreport
      have hmade := h.confined
      rw [heq, (emit_writes m plan disk).1] at hmade
      obtain ⟨x, hx⟩ := List.exists_mem_of_ne_nil _ hne
      obtain ⟨f, hf, _, _, hsafe, _⟩ := forall₂_mem hentries hx
      cases hrendered : plan.rendered with
      | nil =>
        rw [hrendered] at hf
        cases hf
      | cons f rest =>
        obtain ⟨_, _, _, _, hsafe, _⟩ := forall₂_right hentries (hrendered ▸ List.mem_cons_self : f ∈ plan.rendered)
        rw [hrendered] at hend hmade
        have hway := prefix_dropLast hp hne' (target_confined hinside hsafe)
        exact hne' (hp.eq_of_length (le_antisymm hp.length_le
          (hmade p (missing_made hend (Disk.mem_missing.mpr ⟨hway, hnone⟩))).length_le))
  · rw [hhash] at hhash'
    cases hhash'
    obtain ⟨f, hf, hpx, htx, hsx, _⟩ := forall₂_mem hentries hx
    obtain ⟨g, hg, hpy, hty, hsy, _⟩ := forall₂_mem hentries hy
    have htarget : targetOf plan.dir f.1 = targetOf plan.dir g.1 := by
      unfold targetOf
      rw [join_safe hsx, join_safe hsy, hpx, hpy, hpaths]
    have hbytes := (hfiles f hf).2.symm.trans (htarget ▸ (hfiles g hg).2)
    rw [← htx, ← hty]
    exact Entry.file.inj (Option.some.inj hbytes)

section Doubled

/-- A machine whose law allows and whose vault reads the rows of two files back. -/
def agreeing (first second : RecordedFile) : Machine where
  tmp := ["tmp"]
  config := .object []
  law := .ok (.object [(ofText "decision", jsText "allow")])
  append _ := .ok (.object [])
  get i := .ok (.object [(ofText "data", proposalArtifactFor (if i = 0 then first else second) (ofText "1"))])

/-- A file that pins what it renders to. -/
def pinned (path template : String) : RecordedFile := ⟨ofText path, ofText template, ofText (sha256Of (ofText template))⟩

def entryOf (f : RecordedFile) : Value :=
  .object [(ofText "path", .string f.path), (ofText "template", .string f.template), (ofText "contentHash", .string f.contentHash)]

/-- A spec with two spellings of one file, whose command pins a hash. -/
def doubledSpec (hash : String) : Value :=
  .object
    [(ofText "schemaVersion", jsText "1"), (ofText "pluginId", jsText "forge.author"), (ofText "version", jsText "1"),
      (ofText "manifest", .object []), (ofText "files", .array [entryOf (pinned "a" "1"), entryOf (pinned "./a" "2")]),
      (ofText "authoredFiles", .array []), (ofText "authoredRegions", .array []),
      (ofText "commandList", .array [.object [(ofText "op", jsText "forge.author.init@1"), (ofText "inputHash", jsText hash),
        (ofText "outputHash", jsText hash)]])]

def doubledHash : String := ((specInputHash (doubledSpec "")).toOption).getD ""

def doubled : Value := .object [(ofText "spec", doubledSpec doubledHash)]

def doubledMachine : Machine := agreeing (pinned "a" "1") (pinned "./a" "2")

def scratchDisk : Disk := OrderedMap.ofEntries [([], .dir), (["tmp"], .dir)]

lemma stop_bind {α β : Type} (a : α) (f : α → Except Stop β) : (Except.ok a >>= f) = f a := rfl

lemma demand_true (rule detail : String) : demand true rule detail = .ok () := rfl

lemma demand_of {p : Prop} [Decidable p] {rule detail : String} (h : p) : demand (decide p) rule detail = .ok () := by
  rw [decide_eq_true h]
  rfl

lemma ok_of_toOption {α : Type} {x : Except Stop α} {a : α} (h : x.toOption = some a) : x = .ok a := by
  cases x with
  | error e => cases h
  | ok b => cases h; rfl

/-- A hash that the forge computes has the format of a pin. -/
lemma sha256Format_sha256Of (text : JsString) : sha256Format (sha256Of text) = true := by
  unfold sha256Format sha256Of
  rw [Text.startsWith_append, Bool.true_and, decide_eq_true_eq]
  exact (Text.sliceFrom_append "sha256:" _).symm ▸ Sha256.isDigest_sha256Hex _

lemma doubledHash_eq : ∃ text, doubledHash = sha256Of text ∧
    specInputHash (optionalProperty doubled "spec") = .ok doubledHash := by
  have hsome : (canonicalJson (specBodyOf (doubledSpec ""))).toOption.isSome = true := by decide
  cases htext : canonicalJson (specBodyOf (doubledSpec "")) with
  | error e =>
    rw [htext] at hsome
    cases hsome
  | ok text =>
    have hhash : specInputHash (doubledSpec "") = .ok (sha256Of (ofText (String.ofList (text.getD [])))) := by
      unfold specInputHash
      rw [htext]
      rfl
    refine ⟨ofText (String.ofList (text.getD [])), ?_, ?_⟩
    · unfold doubledHash
      rw [hhash]
      rfl
    · have hspec : optionalProperty doubled "spec" = doubledSpec doubledHash := by
        rw [doubled, optionalProperty_cons, if_pos rfl]
      have hbody : specBodyOf (doubledSpec doubledHash) = specBodyOf (doubledSpec "") := by
        simp [specBodyOf, SPEC_BODY_FIELDS, doubledSpec, optionalProperty_cons]
      rw [hspec, specInputHash, hbody, ← specInputHash, hhash, doubledHash, hhash]
      rfl

lemma checkFile_pinned {path template : String} {x : Value} (hpath : optionalProperty x "path" = .string (ofText path))
    (htemplate : optionalProperty x "template" = .string (ofText template))
    (hhash : optionalProperty x "contentHash" = .string (ofText (sha256Of (ofText template)))) (hobj : isObjectLike x = true)
    (hsafe : pathIsSafe (toText (ofText path)) = true) : checkFile x = .ok (pinned path template) := by
  unfold checkFile
  rw [hobj, hpath, htemplate, hhash]
  simp only [toText_ofText] at hsafe ⊢
  rw [sha256Format_sha256Of, hsafe]
  rfl

lemma renderPinned_pinned {path template hash : String} (hplain : renderTemplate (ofText template) hash = ofText template) :
    renderPinned hash (pinned path template) = .ok (pinned path template, ofText template) := by
  unfold renderPinned
  have hpin : ofText (sha256Of (renderTemplate (pinned path template).template hash)) = (pinned path template).contentHash := by
    change ofText (sha256Of (renderTemplate (ofText template) hash)) = _
    rw [hplain]
    rfl
  dsimp only
  rw [if_neg (not_not.mpr hpin)]
  change Except.ok (pinned path template, renderTemplate (ofText template) hash) = _
  rw [hplain]

def doubledPlan : Plan where
  dir := "/tmp/omega-forge-author/emission"
  version := ofText "1"
  inputHash := doubledHash
  rendered := [(pinned "a" "1", ofText "1"), (pinned "./a" "2", ofText "2")]

lemma doubled_prepared : prepare doubledMachine doubled = .ok doubledPlan := by
  obtain ⟨text, htext, hhash⟩ := doubledHash_eq
  have hrequest : checkRequest doubledMachine doubled = .ok doubledPlan.dir := ok_of_toOption (by decide)
  have hidentity : checkIdentity (optionalProperty doubled "spec") = .ok doubledPlan.version :=
    ok_of_toOption (by decide)
  have hpin : isPin (jsText doubledHash) = true := by
    change sha256Format (toText (ofText doubledHash)) = true
    rw [toText_ofText, htext, sha256Format_sha256Of]
  have hcommand : checkCommandList (optionalProperty doubled "spec") = .ok (jsText doubledHash) := by
    have hop : stringOf (jsText "forge.author.init@1") = some FORGE_AUTHOR_OP := congrArg some (toText_ofText _)
    simp [checkCommandList, doubled, doubledSpec, optionalProperty_cons, isObjectLike, hpin, hop]
    rfl
  have hfirst : checkFile (entryOf (pinned "a" "1")) = .ok (pinned "a" "1") :=
    checkFile_pinned (by simp [entryOf, pinned, optionalProperty_cons]) (by simp [entryOf, pinned, optionalProperty_cons])
      (by simp [entryOf, pinned, optionalProperty_cons]) rfl (by decide)
  have hsecond : checkFile (entryOf (pinned "./a" "2")) = .ok (pinned "./a" "2") :=
    checkFile_pinned (by simp [entryOf, pinned, optionalProperty_cons]) (by simp [entryOf, pinned, optionalProperty_cons])
      (by simp [entryOf, pinned, optionalProperty_cons]) rfl (by decide)
  have hfresh : (pinned "./a" "2").path ∉ [(pinned "a" "1").path] := by decide
  have hfiles : checkFiles [] [entryOf (pinned "a" "1"), entryOf (pinned "./a" "2")] = .ok [pinned "a" "1", pinned "./a" "2"] := by
    rw [checkFiles, hfirst, stop_bind, demand_of List.not_mem_nil, stop_bind, checkFiles, hsecond, stop_bind,
      demand_of hfresh, stop_bind, checkFiles]
    rfl
  have hstructure : checkStructure (optionalProperty doubled "spec") = .ok [pinned "a" "1", pinned "./a" "2"] := by
    have hauthored : optionalProperty (optionalProperty doubled "spec") "authoredFiles" = .array [] := by
      simp [doubled, doubledSpec, optionalProperty_cons]
    have hregions : optionalProperty (optionalProperty doubled "spec") "authoredRegions" = .array [] := by
      simp [doubled, doubledSpec, optionalProperty_cons]
    have hlist : optionalProperty (optionalProperty doubled "spec") "files" =
        .array [entryOf (pinned "a" "1"), entryOf (pinned "./a" "2")] := by
      simp [doubled, doubledSpec, optionalProperty_cons]
    have harray : ∀ items detail, arrayIn (.array items) detail = .ok items := fun _ _ => rfl
    unfold checkStructure
    dsimp only
    rw [hlist, hauthored, hregions, harray, stop_bind, List.isEmpty_cons, Bool.not_false, demand_true, stop_bind, hfiles,
      stop_bind]
    rfl
  have hone : renderPinned doubledHash (pinned "a" "1") = .ok (pinned "a" "1", ofText "1") := renderPinned_pinned rfl
  have htwo : renderPinned doubledHash (pinned "./a" "2") = .ok (pinned "./a" "2", ofText "2") := renderPinned_pinned rfl
  have hrendered : [pinned "a" "1", pinned "./a" "2"].mapM (renderPinned doubledHash) = .ok doubledPlan.rendered := by
    rw [List.mapM_cons, hone, List.mapM_cons, htwo]
    rfl
  have hsame : stringOf (jsText doubledHash) = some doubledHash := congrArg some (toText_ofText _)
  unfold prepare
  dsimp only
  rw [hrequest, stop_bind, hidentity, stop_bind, hcommand, stop_bind, hstructure, stop_bind, hhash, orThrow, stop_bind,
    demand_of hsame, stop_bind, hrendered, stop_bind]
  rfl

lemma readBack_self {artifact row : Value} (hrow : isFalsy row = false) (hdata : optionalProperty row "data" = artifact)
    (htext : ∃ text, canonicalJson artifact = .ok text) : readBack artifact (.ok row) = .ok (some row) := by
  obtain ⟨text, htext⟩ := htext
  unfold readBack
  dsimp only
  rw [hrow, if_neg Bool.false_ne_true, hdata, htext, orThrow, stop_bind, stop_bind, if_pos rfl]
  rfl

lemma artifact_text (file : RecordedFile) (version : JsString) :
    ∃ text, canonicalJson (proposalArtifactFor file version) = .ok text := ⟨_, rfl⟩

lemma ledger_agreeing (first second : RecordedFile) :
    ∃ rows, ledger (agreeing first second) (ofText "1") 0 [first, second] = .ok rows := by
  have hread : ∀ i file, (agreeing first second).get i = .ok (.object [(ofText "data", proposalArtifactFor file (ofText "1"))]) →
      readBack (proposalArtifactFor file (ofText "1")) ((agreeing first second).get i) =
        .ok (some (.object [(ofText "data", proposalArtifactFor file (ofText "1"))])) := by
    intro i file hget
    rw [hget]
    exact readBack_self rfl (by rw [optionalProperty_cons, if_pos rfl]) (artifact_text file _)
  have happend : ∀ i, (agreeing first second).append i = .ok (.object []) := fun _ => rfl
  rw [ledger, happend]
  dsimp only
  rw [hread 0 first rfl, stop_bind]
  dsimp only
  rw [ledger, happend]
  dsimp only
  rw [hread 1 second rfl, stop_bind]
  exact ⟨_, rfl⟩

lemma outputHash_ok (files : List RecordedFile) : ∃ hash, emissionOutputHash files = .ok hash := by
  have hitems : ∀ fs : List RecordedFile, ∃ texts, canonicalItems (fs.map fun f =>
      .object [(ofText "path", .string f.path), (ofText "contentHash", .string f.contentHash)]) = .ok texts := by
    intro fs
    induction fs with
    | nil => exact ⟨_, rfl⟩
    | cons f rest ih =>
      obtain ⟨texts, htexts⟩ := ih
      rw [List.map_cons, canonicalItems, htexts]
      exact ⟨_, rfl⟩
  obtain ⟨texts, htexts⟩ := hitems (files.insertionSort fun a b => keyLe a.path b.path)
  unfold emissionOutputHash
  dsimp only
  rw [canonicalJson, htexts]
  exact ⟨_, rfl⟩

lemma doubled_reported : ∃ report, (authorInit doubledMachine doubled scratchDisk).outcome = .emitted report := by
  have hfresh : checkFresh scratchDisk doubledPlan.dir = .ok () := ok_of_toOption (by decide)
  have hlaw : lawSelfCheck doubledMachine = .ok () := ok_of_toOption (by decide)
  have hfiles : (emitFiles doubledMachine doubledPlan.dir 0 doubledPlan.rendered ⟨scratchDisk, []⟩).2 = none := by
    decide
  have hledger : ∃ rows, ledger doubledMachine doubledPlan.version 0 (doubledPlan.rendered.map Prod.fst) = .ok rows :=
    ledger_agreeing (pinned "a" "1") (pinned "./a" "2")
  obtain ⟨rows, hrows⟩ := hledger
  obtain ⟨hash, hhash⟩ := outputHash_ok (doubledPlan.rendered.map Prod.fst)
  rw [authorInit_prepared doubled_prepared hfresh hlaw]
  exact emit_reported hfiles hrows hhash

end Doubled

end Emitted

end Law

end VivimOmega.Forge

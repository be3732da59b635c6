import VivimOmega.Library.Json.Template
import VivimOmega.Llm.Sse
import VivimOmega.Nlcl.Recognize

/-! Decision records: their index section, and the rules that they are held to. -/

namespace VivimOmega.Gates

open Library Library.Json

open Llm (newline)

open Nlcl (Regex isWordUnit isDigit isLetter asciiUpper asciiLower trim)

open Nlcl.Regex (maybeBlanks lit dots isDot boundary)

section Meta

/-- The casing of whole texts: a unit of ASCII is cased by itself, whatever is around it. -/
structure Casing where
  toLowerCase : JsString → JsString
  toUpperCase : JsString → JsString
  upper_ascii : ∀ s, (∀ u ∈ s, u < 128) → toUpperCase s = s.map asciiUpper
  upper_append : ∀ s t u, u < 128 → toUpperCase (s ++ u :: t) = toUpperCase s ++ toUpperCase (u :: t)

/-- The casing of texts of ASCII. -/
def asciiCasing : Casing := ⟨List.map asciiLower, List.map asciiUpper, fun _ _ => rfl, fun _ _ _ _ => List.map_append⟩

/-- `^` and `$` with the flag m. -/
def lineStart : Regex := .border fun prev _ => prev.all (!isDot ·)

def lineEnd : Regex := .border fun _ next => next.all (!isDot ·)

def fieldPattern (name : String) : Regex :=
  .seqs [lineStart, lit (name ++ ":"), maybeBlanks, .group 1 (dots false 1), maybeBlanks, lineEnd]

def metaField (name : String) (body : JsString) : JsString :=
  match Pattern.search (fieldPattern name) body with
  | none => []
  | some m => (m.2 1).getD []

/-- A field is of one line. -/
lemma metaField_line (name : String) (body : JsString) : newline ∉ metaField name body := by
  unfold metaField
  cases hm : Pattern.search (fieldPattern name) body with
  | none => simp
  | some m =>
    have hmem : m ∈ Pattern.tries _ _ := List.mem_of_head? hm
    obtain ⟨a, -, ha⟩ := List.mem_flatMap.mp hmem
    obtain ⟨b, -, hb⟩ := List.mem_flatMap.mp ha
    obtain ⟨c, -, hc⟩ := List.mem_flatMap.mp hb
    obtain ⟨d, -, hd⟩ := List.mem_flatMap.mp hc
    obtain ⟨e, he, hlast⟩ := List.mem_flatMap.mp hd
    obtain ⟨f, hf, rfl⟩ := List.mem_map.mp he
    have hplain : Pattern.Plain (.seq maybeBlanks lineEnd) := ⟨trivial, trivial⟩
    have hgroups := Pattern.plain_groups hplain hlast
    have hclass := Pattern.captured_class hf
    simp only [hgroups, Function.update_self, Option.getD_some]
    intro hnewline
    have hdot := hclass newline hnewline
    cases hdot

structure IndexMeta where
  summary : JsString
  rationale : JsString
  kind : JsString
  summary_line : newline ∉ summary
  rationale_line : newline ∉ rationale

/-- The body of the index section. The source calls the kind of a decision its class. -/
def parseIndexMeta (C : Casing) (body : Option JsString) : Option IndexMeta :=
  body.map fun body => ⟨metaField "summary" body, metaField "rationale" body, C.toLowerCase (trim (metaField "class" body)),
    metaField_line "summary" body, metaField_line "rationale" body⟩

end Meta

section Rules

structure RecordDoc where
  n : ℕ
  file : JsString
  sections : List JsString
  status : JsString
  optionsText : JsString
  decisionLine : JsString
  evidenceText : JsString
  raw : JsString
  indexMeta : Option IndexMeta
  blocks : Option JsString

def generatedFrom : ℕ := 413

def blocksVocab : List JsString :=
  ["none", "Core Phase", "Wave 1", "Wave 2", "Wave 3", "Wave 4", "Wave 5", "Wave 6", "Wave 7", "parallel work"].map ofText

def legalClasses : List JsString := ["evidence", "directive"].map ofText

def requiredSections : List JsString := ["Status", "Context", "Options", "Decision", "Consequences", "Evidence"].map ofText

def legalStatuses : List JsString := ["PROPOSED", "RATIFIED", "SUPERSEDED", "REJECTED"].map ofText

def orBar : JsString := (ofText "|").intercalate legalStatuses

/-- The status that `\b(PROPOSED|RATIFIED|SUPERSEDED|REJECTED)\b` finds at a place. -/
def statusAt (prev : Option UInt16) (text : JsString) : Option JsString :=
  if prev.any isWordUnit then none
  else legalStatuses.find? fun w => decide (w <+: text) && !((text.drop w.length).head?.any isWordUnit)

def firstStatus : Option UInt16 → JsString → Option JsString
  | _, [] => none
  | prev, u :: rest => (statusAt prev (u :: rest)).or (firstStatus (some u) rest)

/-- The expression ignores the case of ASCII letters. -/
def hasStatusWord (s : JsString) : Bool := (firstStatus none (s.map asciiUpper)).isSome

def isTokenUnit (u : UInt16) : Bool := isLetter u || isDigit u

/-- The tokens of `\(([A-Za-z0-9]+)\)`. -/
def optionTokens : JsString → List JsString
  | [] => []
  | u :: rest =>
    let token := rest.takeWhile isTokenUnit
    if u = 40 ∧ token ≠ [] ∧ (rest.dropWhile isTokenUnit).head? = some 41 then token :: optionTokens rest
    else optionTokens rest

def isHexUnit (u : UInt16) : Bool := isDigit u || (97 ≤ u && u ≤ 102)

/-- The words of `\b[0-9a-f]{7,40}\b`. -/
def shas (text : JsString) : List JsString :=
  (text.splitOnP fun u => !isWordUnit u).filter fun w => decide (7 ≤ w.length) && decide (w.length ≤ 40) && w.all isHexUnit

def issue (doc : RecordDoc) (parts : List JsString) : JsString := doc.file ++ ofText ": " ++ parts.flatten

def sectionIssues (doc : RecordDoc) : List JsString :=
  let order := doc.sections.filter (· ∈ requiredSections)
  ((requiredSections.filter (· ∉ doc.sections)).map fun s => issue doc [ofText "missing ## ", s, ofText " section"]) ++
  if order ≠ requiredSections then
    let got := (ofText " → ").intercalate order
    [issue doc [ofText "sections out of order (want ", (ofText " → ").intercalate requiredSections, ofText ", got ",
      if got = [] then ofText "none" else got, ofText ")"]]
  else []

def optionsIssues (doc : RecordDoc) : List JsString :=
  if (Pattern.search (.seqs [lineStart, maybeBlanks, lit "|"]) doc.optionsText).isSome then []
  else [issue doc [ofText "## Options has no matrix table (| … |)"]]

def decisionMark : JsString := ofText "**Decision:**"

def decisionIssues (doc : RecordDoc) : List JsString :=
  if doc.decisionLine = [] then [issue doc [ofText "## Decision has no **Decision:** line"]]
  else
    let body := trim (if decisionMark <+: doc.decisionLine then doc.decisionLine.drop decisionMark.length else doc.decisionLine)
    (if body = [] then [issue doc [ofText "**Decision:** names nothing"]] else []) ++
    (if (Pattern.search (.seqs [boundary, lit "TBD", boundary]) body).isSome ∧ doc.status ≠ ofText "PROPOSED" then
      [issue doc [ofText "TBD decision is only legal while PROPOSED"]] else []) ++
    (((optionTokens body).filter fun token => !decide (ofText "(" ++ token ++ ofText ")" <:+: doc.optionsText)).map fun token =>
      issue doc [ofText "Decision names option \"(", token, ofText ")\" absent from the Options matrix"])

def supersededIssues (doc : RecordDoc) : List JsString :=
  let raw := doc.raw.map asciiLower
  if doc.status = ofText "SUPERSEDED" ∧ ¬ (ofText "superseded-by" <:+: raw ∨ ofText "supersedes" <:+: raw) then
    [issue doc [ofText "SUPERSEDED requires a Superseded-By/Supersedes pointer"]]
  else []

def evidenceIssues (doc : RecordDoc) : List JsString :=
  if trim doc.evidenceText = [] then [issue doc [ofText "## Evidence is empty"]] else []

def metaIssues (doc : RecordDoc) (m : IndexMeta) : List JsString :=
  let flat := m.summary ++ ofText " " ++ m.rationale
  (if m.summary = [] ∨ m.rationale = [] then [issue doc [ofText
    "## Index needs non-empty summary: and rationale: lines (the row's Decision and Rationale cells)"]] else []) ++
  (if m.kind ∉ legalClasses then [issue doc [ofText "## Index class \"", m.kind, ofText "\" illegal (want ",
    (ofText " | ").intercalate legalClasses, ofText ")"]] else []) ++
  (if hasStatusWord flat then [issue doc [ofText "## Index summary/rationale must not contain status words (", orBar,
    ofText ") — the index first-word trap class (the D-410 bite)"]] else []) ++
  (if 124 ∈ flat then [issue doc [ofText
    "## Index summary/rationale must not contain \"|\" — it would break the generated row"]] else [])

def indexIssues (doc : RecordDoc) : List JsString :=
  if doc.n < generatedFrom then []
  else
    match doc.indexMeta with
    | none => [issue doc [ofText
      "missing ## Index section (required from D-413: summary:/rationale:/class: lines — omega:new-decision emits it)"]]
    | some m => metaIssues doc m

def blocksIssues (doc : RecordDoc) : List JsString :=
  (doc.blocks.filter (· ∉ blocksVocab)).toList.map fun b =>
    issue doc [ofText "Blocks \"", b, ofText "\" outside the vocabulary (", (ofText " | ").intercalate blocksVocab, ofText ")"]

def shaIssues (shaExists : JsString → Bool) (doc : RecordDoc) : List JsString :=
  if doc.status = ofText "RATIFIED" ∧ ¬ (shas doc.evidenceText).any shaExists then
    [issue doc [ofText "RATIFIED with no resolvable commit SHA in ## Evidence"]]
  else []

/-- A sha for which the lookup throws does not exist. -/
def validateRecord (shaExists : JsString → Bool) (doc : RecordDoc) : List JsString :=
  if doc.status ∉ legalStatuses then
    sectionIssues doc ++ [issue doc [ofText "illegal status \"", doc.status, ofText "\" (want one of ", orBar, ofText ")"]]
  else sectionIssues doc ++ optionsIssues doc ++ decisionIssues doc ++ supersededIssues doc ++ evidenceIssues doc ++
    indexIssues doc ++ blocksIssues doc ++ shaIssues shaExists doc

variable {shaExists : JsString → Bool} {doc : RecordDoc} {m : IndexMeta}

/-- What the index needs of a record of its era. -/
structure Indexed (doc : RecordDoc) (m : IndexMeta) : Prop where
  status : doc.status ∈ legalStatuses
  kind : m.kind ∈ legalClasses
  unworded : firstStatus none ((m.summary ++ ofText " " ++ m.rationale).map asciiUpper) = none

lemma indexed_of_valid (h : validateRecord shaExists doc = []) (hera : generatedFrom ≤ doc.n) :
    ∃ m, doc.indexMeta = some m ∧ Indexed doc m := by
  by_cases hstatus : doc.status ∈ legalStatuses
  · rw [validateRecord, if_neg (not_not.mpr hstatus)] at h
    simp only [List.append_eq_nil_iff] at h
    obtain ⟨⟨⟨-, hindex⟩, -⟩, -⟩ := h
    rw [indexIssues, if_neg (by omega)] at hindex
    cases hmeta : doc.indexMeta with
    | none => simp [hmeta] at hindex
    | some m =>
      simp only [hmeta, metaIssues, List.append_eq_nil_iff] at hindex
      obtain ⟨⟨⟨-, hkind⟩, hworded⟩, -⟩ := hindex
      refine ⟨m, rfl, hstatus, ?_, ?_⟩
      · by_contra hillegal
        simp [hillegal] at hkind
      · simpa [hasStatusWord] using hworded
  · rw [validateRecord, if_pos hstatus] at h
    simp at h

end Rules

end VivimOmega.Gates

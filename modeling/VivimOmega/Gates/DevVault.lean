import VivimOmega.Gates.GateImport
import VivimOmega.Library.OrderedMap
import VivimOmega.Library.Writing

/-! The development vault: entries that are written once, and the chain that witnesses them. -/

namespace VivimOmega.Gates

open Library Library.Json

section Entries

inductive DevType
  | lesson
  | pattern
  | mistake
  | note
  deriving DecidableEq

def DevType.text : DevType → JsString
  | .lesson => ofText "lesson"
  | .pattern => ofText "pattern"
  | .mistake => ofText "mistake"
  | .note => ofText "note"

def devTypes : List JsString := [DevType.lesson, .pattern, .mistake, .note].map DevType.text

def retention : JsString := ofText "dev-vault-permanent"

/-- The stamp is the source's `at`. -/
structure DevEntry where
  id : JsString
  type : DevType
  stamp : JsString
  agent : JsString
  context : JsString
  statement : JsString
  evidence : List JsString
  appliesTo : List JsString

def texts (items : List JsString) : Value := .array (items.map Value.string)

def DevEntry.value (e : DevEntry) : Value :=
  .object [(ofText "id", .string e.id), (ofText "type", .string e.type.text), (ofText "at", .string e.stamp),
    (ofText "agent", .string e.agent), (ofText "context", .string e.context), (ofText "statement", .string e.statement),
    (ofText "evidence", texts e.evidence), (ofText "appliesTo", texts e.appliesTo), (ofText "retention", .string retention)]

def serializeEntry (e : DevEntry) : List Char := prettyText 0 e.value ++ ['\n']

/-- `String(v)`. -/
def stringOf : Value → JsString
  | .string s => s
  | v => ofText (jsString v)

def isLetterOrDigit (u : UInt16) : Bool := (97 ≤ u && u ≤ 122) || (48 ≤ u && u ≤ 57)

def isDayDigit (u : UInt16) : Bool := 48 ≤ u && u ≤ 57

def isKebabUnit (u : UInt16) : Bool := isLetterOrDigit u || u = 45

/-- Eight digits, a dash and a slug. -/
def isEntryId (id : JsString) : Bool :=
  (id.take 8).length = 8 && (id.take 8).all isDayDigit && (id.drop 8).head? = some 45 && id.drop 9 ≠ [] && (id.drop 9).all isKebabUnit

def isBlankCitation (v : Value) : Bool := Nlcl.trim (stringOf v) = []

/-- `String` throws for a citation that comes before the first blank one. -/
def citationThrows : List Value → Bool
  | [] => false
  | v :: rest => unprintable v || (!isBlankCitation v && citationThrows rest)

def citations : Value → Option (List Value)
  | .array items => some items
  | _ => none

/-- Where the check of a value throws a TypeError. -/
def entryThrows (raw : Value) : Bool :=
  let statement := optionalProperty raw "statement"
  unprintable (optionalProperty raw "id") || unprintable (optionalProperty raw "type") || unprintable (optionalProperty raw "retention") ||
    (!isFalsy statement && (textOf statement).isNone) || (citations (optionalProperty raw "evidence")).any citationThrows

def entryIssues (raw : Value) : List String :=
  let id := optionalProperty raw "id"
  let type := optionalProperty raw "type"
  let keep := optionalProperty raw "retention"
  (if !isFalsy id && isEntryId (stringOf id) then [] else ["id \"" ++ jsString id ++ "\" must be <yyyymmdd>-<kebab-slug>"]) ++
  (if (textOf type).any (· ∈ devTypes) then []
    else ["type \"" ++ jsString type ++ "\" illegal (" ++ " | ".intercalate (devTypes.map toText) ++ ")"]) ++
  (if (textOf (optionalProperty raw "statement")).any fun s => Nlcl.trim s ≠ [] then []
    else ["statement is required and must be non-empty"]) ++
  (if (citations (optionalProperty raw "evidence")).any fun items => items ≠ [] && !items.any isBlankCitation then []
    else ["DEV_EVIDENCE_REQUIRED: at least one non-empty evidence citation — an uncited lesson is an opinion"]) ++
  (if textOf keep = some retention then [] else ["retention \"" ++ jsString keep ++ "\" illegal (dev-vault-permanent)"])

def isNull : Value → Bool
  | .null => true
  | _ => false

def parseEntry (text : List Char) : Except EventFault Value :=
  match parse text with
  | none => .error (.issues ["not valid JSON"])
  | some raw =>
    if isNull raw || entryThrows raw then .error .typeError
    else if entryIssues raw = [] then .ok raw
    else .error (.issues (entryIssues raw))

/-- An entry as a close writes it. -/
structure WellKept (e : DevEntry) : Prop where
  id : isEntryId e.id
  statement : Nlcl.trim e.statement ≠ []
  cited : e.evidence ≠ []
  evidence : ∀ c ∈ e.evidence, Nlcl.trim c ≠ []

variable {e : DevEntry} {items : List JsString}

lemma plain_texts (items : List JsString) : Value.Plain (texts items) := by
  refine .array ?_
  intro v hv
  obtain ⟨s, -, rfl⟩ := List.mem_map.mp hv
  exact .string s

lemma DevEntry.plain (e : DevEntry) : Value.Plain e.value := by
  refine .object (by simp [ofText_injective.eq_iff]) ?_
  simp [Value.Plain.string, plain_texts]

lemma parse_serializeEntry (e : DevEntry) : parse (serializeEntry e) = some e.value := by
  have hread := e.plain.readsPretty 0 ((serializeEntry e).length + 1) ['\n'] (by simp [serializeEntry]; omega) (endsNumber_newline [])
  rw [parse]
  rw [← serializeEntry] at hread
  rw [hread]
  rfl

lemma citationThrows_strings (items : List JsString) : citationThrows (items.map Value.string) = false := by
  induction items with
  | nil => rfl
  | cons s items ih => simp [citationThrows, unprintable, ih]

lemma type_legal (t : DevType) : t.text ∈ devTypes := by
  cases t <;> simp [devTypes]

/-- What a close writes is an entry. -/
lemma parseEntry_serialize (h : WellKept e) : parseEntry (serializeEntry e) = .ok e.value := by
  have hid : e.id ≠ [] := by
    intro hnil
    have hentry := h.id
    rw [hnil] at hentry
    cases hentry
  have hstatement : e.statement ≠ [] := by
    intro hnil
    have htrim := h.statement
    rw [hnil] at htrim
    exact htrim rfl
  have hthrows : entryThrows e.value = false := by
    simp [entryThrows, DevEntry.value, optionalProperty_cons, unprintable, isFalsy, textOf, texts, citations, citationThrows_strings]
  have hissues : entryIssues e.value = [] := by
    simp [entryIssues, DevEntry.value, optionalProperty_cons, isFalsy, textOf, texts, citations, stringOf, isBlankCitation,
      h.id, hid, h.statement, h.cited, type_legal]
    exact fun c hc => decide_eq_false (h.evidence c hc)
  have hnull : isNull e.value = false := rfl
  rw [parseEntry, parse_serializeEntry]
  simp only [hnull, hthrows, hissues, Bool.or_self, Bool.false_eq_true, if_false, if_true]

end Entries

section Vault

variable (sha256 : List Char → JsString)

structure ChainLink where
  file : JsString
  sha256 : JsString
  prev : JsString

structure DevLedger where
  chain : List ChainLink
  head : JsString

/-- A file of JSON: what it parses to, if it parses. -/
inductive JsonFile (α : Type)
  | absent
  | malformed
  | holds (a : α)

/-- The files of the vault by their paths in it, the ledger apart. -/
structure DevVault where
  files : OrderedMap JsString (List Char)
  ledger : JsonFile DevLedger

inductive DevIssue
  | missing (file : JsString)
  | hashMismatch (file recorded actual : JsString)
  | prevBroken (file prev before : JsString)
  | invalid (file : JsString) (fault : EventFault)
  | headMismatch (head recomputed : JsString)
  | orphan (file : JsString)

def DevIssue.text : DevIssue → String
  | .missing file => "DEV_CHAIN_BROKEN: chained entry " ++ toText file ++ " is missing"
  | .hashMismatch file recorded actual => "DEV_CHAIN_BROKEN: " ++ toText file ++ " hash mismatch — recorded " ++
      toText (recorded.take 8) ++ "…, actual " ++ toText (actual.take 8) ++ "… (edited or corrupted after chaining)"
  | .prevBroken file prev before => "DEV_CHAIN_BROKEN: " ++ toText file ++ " prev " ++ toText (prev.take 8) ++
      "… does not continue the chain (" ++ toText (before.take 8) ++ "…)"
  | .invalid file (.issues texts) => "DEV_ENTRY_INVALID: " ++ toText file ++ ": " ++ "; ".intercalate texts
  | .invalid _ .typeError => "TypeError"
  | .headMismatch head recomputed => "DEV_CHAIN_BROKEN: ledger head " ++ toText (head.take 8) ++ "… ≠ recomputed " ++
      toText (recomputed.take 8) ++ "…"
  | .orphan file => "DEV_ORPHAN: " ++ toText file ++
      " exists but is not in the chain — record it or remove it (an unchained entry is unverifiable)"

def readLedger : JsonFile DevLedger → Option DevLedger
  | .absent => some ⟨[], genesis⟩
  | .malformed => none
  | .holds ledger => some ledger

def linkFaults (files : OrderedMap JsString (List Char)) : JsString → List ChainLink → List DevIssue
  | _, [] => []
  | prev, link :: rest =>
    (match files.get? link.file with
    | none => [.missing link.file]
    | some text =>
      (if sha256 text ≠ link.sha256 then [.hashMismatch link.file link.sha256 (sha256 text)] else []) ++
      (if link.prev ≠ prev then [.prevBroken link.file link.prev prev] else []) ++
      (match parseEntry text with
      | .ok _ => []
      | .error fault => [.invalid link.file fault])) ++ linkFaults files link.sha256 rest

def chainEnd (chain : List ChainLink) : JsString := (chain.getLast?.map ChainLink.sha256).getD genesis

def entriesDir : JsString := ofText "entries/"

def json : JsString := ofText ".json"

/-- A file of the directory of the entries whose name ends in `.json`. -/
def isEntryFile (file : JsString) : Bool :=
  entriesDir.isPrefixOf file && !(file.drop entriesDir.length).contains 47 && json.isSuffixOf (file.drop entriesDir.length)

/-- As in the verification of a stream, a fault that is a TypeError is thrown. -/
def verifyDevVault (files : OrderedMap JsString (List Char)) (ledger : DevLedger) : List DevIssue :=
  linkFaults sha256 files genesis ledger.chain ++
  (if ledger.head ≠ chainEnd ledger.chain then [.headMismatch ledger.head (chainEnd ledger.chain)] else []) ++
  ((files.keys.filter fun file => isEntryFile file && !(ledger.chain.map ChainLink.file).contains file).map DevIssue.orphan)

/-- `none` is a TypeError. -/
def loadEntries (files : OrderedMap JsString (List Char)) : List ChainLink → Option (List Value)
  | [] => some []
  | link :: rest =>
    match files.get? link.file with
    | none => loadEntries files rest
    | some text =>
      match parseEntry text with
      | .ok e => (loadEntries files rest).map (e :: ·)
      | .error (.issues _) => loadEntries files rest
      | .error .typeError => none

variable {sha256} {files : OrderedMap JsString (List Char)} {chain : List ChainLink} {link : ChainLink} {prev path : JsString}
variable {ledger : DevLedger} {text : List Char} {v : Value} {es : List Value}

lemma verified_cons : linkFaults sha256 files prev (link :: chain) = [] ↔
    (∃ text v, files.get? link.file = some text ∧ sha256 text = link.sha256 ∧ parseEntry text = .ok v) ∧ link.prev = prev ∧
      linkFaults sha256 files link.sha256 chain = [] := by
  rw [linkFaults, List.append_eq_nil_iff]
  cases hfile : files.get? link.file with
  | none => simp
  | some text =>
    cases hparse : parseEntry text <;> simp [hparse]
    tauto

lemma chained_exists (h : linkFaults sha256 files prev chain = []) : ∀ link ∈ chain, (files.get? link.file).isSome := by
  induction chain generalizing prev with
  | nil => simp
  | cons l chain ih =>
    obtain ⟨⟨text, v, hfile, -⟩, -, hrest⟩ := verified_cons.mp h
    rintro link hlink
    rcases List.mem_cons.mp hlink with rfl | hlink
    · rw [hfile]
      rfl
    · exact ih hrest link hlink

/-- A file that is new takes nothing from the chain, and its link continues it. -/
lemma linkFaults_push (h : linkFaults sha256 files prev chain = []) (hnew : files.get? path = none)
    (hparse : parseEntry text = .ok v) :
    linkFaults sha256 (files.set path text) prev
      (chain ++ [⟨path, sha256 text, (chain.getLast?.map ChainLink.sha256).getD prev⟩]) = [] := by
  induction chain generalizing prev with
  | nil =>
    rw [List.nil_append, verified_cons]
    exact ⟨⟨text, v, OrderedMap.get?_set_self _ _ _, rfl, hparse⟩, rfl, rfl⟩
  | cons l chain ih =>
    obtain ⟨⟨t, w, hfile, hhash, hw⟩, hprev, hrest⟩ := verified_cons.mp h
    have hne : l.file ≠ path := by
      rintro rfl
      rw [hnew] at hfile
      cases hfile
    have hlast : ((l :: chain).getLast?.map ChainLink.sha256).getD prev =
        (chain.getLast?.map ChainLink.sha256).getD l.sha256 := by
      cases chain with
      | nil => rfl
      | cons m chain => simp [List.getLast?_cons]
    rw [List.cons_append, verified_cons, hlast]
    exact ⟨⟨t, w, (OrderedMap.get?_set_of_ne _ _ hne).trans hfile, hhash, hw⟩, hprev, ih hrest⟩

lemma verified_vault_iff : verifyDevVault sha256 files ledger = [] ↔ linkFaults sha256 files genesis ledger.chain = [] ∧
    ledger.head = chainEnd ledger.chain ∧
      ∀ file ∈ files.keys, isEntryFile file = true → file ∈ ledger.chain.map ChainLink.file := by
  simp [verifyDevVault]

def pushEntry (sha256 : List Char → JsString) (ledger : DevLedger) (path : JsString) (text : List Char) : DevLedger :=
  ⟨ledger.chain ++ [⟨path, sha256 text, ledger.head⟩], sha256 text⟩

lemma verified_pushEntry (h : verifyDevVault sha256 files ledger = []) (hnew : files.get? path = none)
    (hparse : parseEntry text = .ok v) : verifyDevVault sha256 (files.set path text) (pushEntry sha256 ledger path text) = [] := by
  obtain ⟨hlinks, hhead, hkeys⟩ := verified_vault_iff.mp h
  rw [verified_vault_iff]
  refine ⟨?_, by simp [pushEntry, chainEnd], ?_⟩
  · rw [pushEntry, hhead]
    exact linkFaults_push hlinks hnew hparse
  · intro file hfile hentry
    rw [pushEntry, List.map_append, List.mem_append]
    have hsome := (OrderedMap.get?_isSome _ file).mpr hfile
    by_cases heq : file = path
    · exact .inr (by simp [heq])
    · rw [OrderedMap.get?_set_of_ne _ _ heq] at hsome
      exact .inl (hkeys file ((OrderedMap.get?_isSome files file).mp hsome) hentry)

lemma load_pushEntry (h : linkFaults sha256 files prev chain = []) (hload : loadEntries files chain = some es)
    (hnew : files.get? path = none) (hparse : parseEntry text = .ok v) (hash : JsString) (before : JsString) :
    loadEntries (files.set path text) (chain ++ [⟨path, hash, before⟩]) = some (es ++ [v]) := by
  induction chain generalizing prev es with
  | nil =>
    cases hload
    rw [List.nil_append, loadEntries, OrderedMap.get?_set_self]
    simp [hparse, loadEntries]
  | cons l chain ih =>
    obtain ⟨⟨t, w, hfile, -, hw⟩, -, hrest⟩ := verified_cons.mp h
    have hne : l.file ≠ path := by
      rintro rfl
      rw [hnew] at hfile
      cases hfile
    rw [loadEntries, hfile] at hload
    simp only [hw, Option.map_eq_some_iff] at hload
    obtain ⟨tail, htail, rfl⟩ := hload
    rw [List.cons_append, loadEntries, OrderedMap.get?_set_of_ne _ _ hne, hfile]
    simp [hw, ih hrest htail]

end Vault

end VivimOmega.Gates

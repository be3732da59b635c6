import VivimOmega.Gates.Session
import VivimOmega.Library.Json.Parsed
import VivimOmega.Library.Text

/-! The import of the gate's log into the stream of an open session. -/

namespace VivimOmega.Gates

open Library Library.Json

section Log

/-- A row of the log in the session's window. The stamp is the source's `at`, the time what it parses to. -/
structure GateRow where
  stamp : JsString
  time : ℤ
  ok : Bool
  tests : Value

/-- The value null has no properties, and its line makes the import throw. -/
inductive LogLine
  | skipped
  | fails
  | row (r : GateRow)

/-- What `??` leaves. -/
def orElse (other : Value) : Value → Value
  | .undefined => other
  | .null => other
  | v => v

variable (cal : Calendar)

def readLogLine (beganAtMs now : ℤ) (line : Line) : LogLine :=
  if line.all Library.Text.isBlank then .skipped
  else
    match parse line with
    | none => .skipped
    | some v =>
      if v matches .null then .fails
      else
        match textOf (optionalProperty v "at") with
        | none => .skipped
        | some stamp =>
          match if stamp = [] then none else cal.parse stamp with
          | none => .skipped
          | some t =>
            if t < beganAtMs ∨ now < t then .skipped
            else .row ⟨stamp, t, optionalProperty v "ok" matches .bool true, orElse .null (optionalProperty v "tests")⟩

mutual

/-- A value that `String` throws for: a parsed object has no other `toString` where it has a key of that name. -/
def unprintable : Value → Bool
  | .object members => decide (ofText "toString" ∈ members.map Prod.fst)
  | .array items => anyUnprintable items
  | _ => false

def anyUnprintable : List Value → Bool
  | [] => false
  | v :: rest => unprintable v || anyUnprintable rest

end

def GateRow.count (r : GateRow) (name : String) : Value := orElse (jsText "?") (optionalProperty r.tests name)

/-- `none` is a TypeError. -/
def GateRow.note (r : GateRow) : Option JsString :=
  if unprintable (r.count "pass") || unprintable (r.count "fail") then none
  else some (ofText "full gate " ++ ofText (if r.ok then "GREEN" else "RED") ++ ofText " — tests " ++
    ofText (jsString (r.count "pass")) ++ ofText " pass / " ++ ofText (jsString (r.count "fail")) ++
    ofText " fail (imported from build/gates.log)")

def GateRow.data (r : GateRow) : List (JsString × Value) :=
  [(ofText "ok", .bool r.ok), (ofText "tests", r.tests), (ofText "source", jsText "build/gates.log")]

variable {cal} {beganAtMs now : ℤ} {line : Line} {r : GateRow} {note : JsString}

/-- A row of the log, as it is read. -/
structure Read (cal : Calendar) (beganAtMs : ℤ) (r : GateRow) : Prop where
  time : cal.parse r.stamp = some r.time
  began : beganAtMs ≤ r.time
  tests : Value.Plain r.tests

lemma plain_property {v : Value} (hv : Value.Plain v) (name : String) :
    Value.Plain (orElse .null (optionalProperty v name)) := by
  cases hv with
  | @object members hkeys h =>
    have hread : optionalProperty (.object members) name =
        ((members.find? fun m => m.1 = ofText name).map Prod.snd).getD .undefined := rfl
    rw [hread]
    cases hfind : members.find? fun m => m.1 = ofText name with
    | none => exact .null
    | some m =>
      have hm := h m (List.mem_of_find?_eq_some hfind)
      rw [Option.map_some, Option.getD_some]
      revert hm
      cases m.2 <;> first | exact fun hm => hm | exact fun _ => .null
  | _ => exact .null

lemma read_of_row (h : readLogLine cal beganAtMs now line = .row r) : Read cal beganAtMs r := by
  unfold readLogLine at h
  split_ifs at h
  cases hparse : parse line with
  | none => simp [hparse] at h
  | some v =>
    simp only [hparse] at h
    split_ifs at h
    cases hstamp : textOf (optionalProperty v "at") with
    | none => simp [hstamp] at h
    | some stamp =>
      simp only [hstamp] at h
      cases htime : if stamp = [] then none else cal.parse stamp with
      | none => simp [htime] at h
      | some t =>
        simp only [htime] at h
        split_ifs at h with hwindow
        cases h
        rw [not_or] at hwindow
        refine ⟨?_, not_lt.mp hwindow.1, plain_property (parse_plain hparse) "tests"⟩
        split_ifs at htime
        exact htime

def rowEvent (cal : Calendar) (o : OpenSession) (r : GateRow) (note : JsString) : SessionEvent :=
  ⟨cal.toISOString r.time, .ofInt (r.time - o.beganAtMs), gateRun, note, some r.data⟩

lemma trim_cons_ne_nil {u : UInt16} {rest : JsString} (hu : Nlcl.isSpace u = false) : Nlcl.trim (u :: rest) ≠ [] := by
  rw [Nlcl.trim, List.dropWhile_cons_of_neg (by simp [hu])]
  intro h
  have hall := List.rdropWhile_eq_nil_iff.mp h u List.mem_cons_self
  rw [hu] at hall
  cases hall

lemma note_trim (h : r.note = some note) : Nlcl.trim note ≠ [] := by
  rw [GateRow.note, Option.ite_none_left_eq_some, Option.some.injEq] at h
  have hfull : ofText "full gate " = 102 :: ofText "ull gate " := by decide
  rw [← h.2, hfull]
  simp only [List.cons_append]
  exact trim_cons_ne_nil (by decide)

lemma elapsed_ofInt {n : ℤ} (h : 0 ≤ n) : (Number.ofInt n).lt .zero = false := by
  have hzero : Number.zero = Number.ofInt 0 := by decide
  rw [hzero, lt_ofInt, decide_eq_false_iff_not]
  omega

lemma wellformed_row {t : ℤ} {m : Number} (hread : Read cal beganAtMs r) (hnote : r.note = some note)
    (hfinite : m.IsFinite) (helapsed : m.lt .zero = false) :
    Wellformed cal ⟨cal.toISOString t, m, gateRun, note, some r.data⟩ := by
  have hkind : gateRun ∈ sessionKinds := by decide
  refine ⟨by simp [cal.parse_iso], hfinite, helapsed, hkind, note_trim hnote, ?_⟩
  rintro members hmembers
  cases hmembers
  refine .object ?_ ?_
  · simp [GateRow.data, ofText_injective.eq_iff]
  · simp [GateRow.data, Value.Plain.bool, hread.tests, jsText, Value.Plain.string]

end Log

section Import

variable (cal : Calendar) (sha256 : Line → JsString) (o : OpenSession)

inductive ImportFault
  | typeError
  | refused (r : SessionRefusal)

structure Importing where
  stream : Stream
  ats : List JsString
  imported : ℕ
  skipped : ℕ

def importLines : List LogLine → Importing → Except ImportFault (ℕ × ℕ) × Stream
  | [], i => (.ok (i.imported, i.skipped), i.stream)
  | .skipped :: rest, i => importLines rest i
  | .fails :: _, i => (.error .typeError, i.stream)
  | .row r :: rest, i =>
    if r.stamp ∈ i.ats then importLines rest { i with skipped := i.skipped + 1 }
    else
      match r.note with
      | none => (.error .typeError, i.stream)
      | some note =>
        match appendSessionEvent cal sha256 (some o) i.stream gateRun note (some r.data) r.time with
        | .error refusal => (.error (.refused refusal), i.stream)
        | .ok appended => importLines rest ⟨appended.1, r.stamp :: i.ats, i.imported + 1, i.skipped⟩

def eventAt (line : Line) : Option SessionEvent := (parseEvent cal line).toOption

def stampsOf (lines : List Line) : List JsString := lines.filterMap fun line => (eventAt cal line).map SessionEvent.stamp

/-- The lines of the log, none where there is no file. -/
def logLines (now : ℤ) (log : Option (List Char)) : List LogLine :=
  match log with
  | none => []
  | some text => (text.splitOn '\n').map (readLogLine cal o.beganAtMs now)

/-- `none` is that no session is open. -/
def importGatesLog (opened : Option OpenSession) (log : Option (List Char)) (now : ℤ) (s : Stream) :
    Except ImportFault (ℕ × ℕ) × Stream :=
  match opened with
  | none => (.error (.refused .noneOpen), s)
  | some o => importLines cal sha256 o (logLines cal o now log) ⟨s, stampsOf cal s.lines, 0, 0⟩

/-- The rows that are to be appended: of each stamp that no event has, the first. The lines that throw are `none`. -/
def due : List JsString → List LogLine → List (Option GateRow)
  | _, [] => []
  | ats, .skipped :: rest => due ats rest
  | ats, .fails :: rest => none :: due ats rest
  | ats, .row r :: rest => if r.stamp ∈ ats then due ats rest else some r :: due (r.stamp :: ats) rest

def elapsed (r : GateRow) : Number := .ofInt (r.time - o.beganAtMs)

/-- A row that can be written and is not earlier than the last event. -/
def Appendable (last : Option Number) (r : GateRow) : Prop := r.note.isSome ∧ ∀ l ∈ last, (elapsed o r).lt l = false

/-- Every one of the rows can be appended after those before it. -/
def Flows : Option Number → List (Option GateRow) → Prop
  | _, [] => True
  | _, none :: _ => False
  | last, some r :: rest => Appendable o last r ∧ Flows (some (elapsed o r)) rest

def lastOf (lines : List Line) : Option Number := if lines = [] then none else some (lastTMs cal lines)

variable {cal sha256 o} {i : Importing} {s : Stream} {log rest : List LogLine} {r : GateRow} {note : JsString} {ats : List JsString}

def rowLine (cal : Calendar) (o : OpenSession) (r : GateRow) (note : JsString) : Line :=
  serializeEvent ⟨cal.toISOString r.time, elapsed o r, gateRun, note, some r.data⟩

lemma parse_rowLine (hread : Read cal o.beganAtMs r) (hnote : r.note = some note) :
    parseEvent cal (rowLine cal o r note) = .ok ⟨cal.toISOString r.time, elapsed o r, gateRun, note, some r.data⟩ := by
  have hbegan := hread.began
  exact parseEvent_serialize (wellformed_row hread hnote (isFinite_ofInt _) (elapsed_ofInt (by omega)))

/-- What appending a row comes to: the chain, then the time, then the line. -/
lemma append_row (hread : Read cal o.beganAtMs r) (hnote : r.note = some note) :
    appendSessionEvent cal sha256 (some o) s gateRun note (some r.data) r.time =
      match verifyChain cal sha256 s.lines s.chain with
      | issue :: _ => .error (.chainBroken issue)
      | [] =>
        if s.lines ≠ [] ∧ (elapsed o r).lt (lastTMs cal s.lines) then
          .error (.timeRegress (r.time - o.beganAtMs) (lastTMs cal s.lines))
        else .ok (pushLine sha256 s (rowLine cal o r note), s.lines.length + 1, r.time - o.beganAtMs) := by
  have hparse := parseEvent_serialize (wellformed_row (t := r.time) hread hnote (m := .zero) trivial (by decide))
  rw [appendSessionEvent]
  simp only [hparse]
  rfl

lemma importLines_cons : importLines cal sha256 o (.row r :: rest) i =
    if r.stamp ∈ i.ats then importLines cal sha256 o rest { i with skipped := i.skipped + 1 }
    else
      match r.note with
      | none => (.error .typeError, i.stream)
      | some note =>
        match appendSessionEvent cal sha256 (some o) i.stream gateRun note (some r.data) r.time with
        | .error refusal => (.error (.refused refusal), i.stream)
        | .ok appended => importLines cal sha256 o rest ⟨appended.1, r.stamp :: i.ats, i.imported + 1, i.skipped⟩ := rfl

lemma due_row : due ats (.row r :: log) = if r.stamp ∈ ats then due ats log else some r :: due (r.stamp :: ats) log := rfl

/-- An import into a stream that does not verify leaves it as it is. -/
lemma importLines_broken (hlog : ∀ r, .row r ∈ log → Read cal o.beganAtMs r)
    (hbroken : verifyChain cal sha256 i.stream.lines i.stream.chain ≠ []) : (importLines cal sha256 o log i).2 = i.stream := by
  induction log generalizing i with
  | nil => rfl
  | cons x rest ih =>
    have hrest : ∀ r, .row r ∈ rest → Read cal o.beganAtMs r := fun r hr => hlog r (List.mem_cons_of_mem x hr)
    cases x with
    | skipped => exact ih hrest hbroken
    | fails => rfl
    | row r =>
      rw [importLines_cons]
      split_ifs
      · exact ih hrest hbroken
      · cases hnote : r.note with
        | none => rfl
        | some note =>
          obtain ⟨issue, issues, hissues⟩ := List.exists_cons_of_ne_nil hbroken
          simp only [append_row (hlog r List.mem_cons_self) hnote, hissues]

lemma lastOf_push (hread : Read cal o.beganAtMs r) (hnote : r.note = some note) :
    lastOf cal (pushLine sha256 s (rowLine cal o r note)).lines = some (elapsed o r) := by
  simp [lastOf, lastTMs, pushLine, parse_rowLine hread hnote]

/-- The state after a row. -/
def Importing.push (sha256 : Line → JsString) (cal : Calendar) (o : OpenSession) (i : Importing) (r : GateRow) (note : JsString) :
    Importing := ⟨pushLine sha256 i.stream (rowLine cal o r note), r.stamp :: i.ats, i.imported + 1, i.skipped⟩

lemma regress_iff (cal : Calendar) (s : Stream) (r : GateRow) :
    (s.lines ≠ [] ∧ (elapsed o r).lt (lastTMs cal s.lines)) ↔ ¬ ∀ l ∈ lastOf cal s.lines, (elapsed o r).lt l = false := by
  unfold lastOf
  split_ifs with h <;> simp [h]

lemma importLines_row (hread : Read cal o.beganAtMs r) (hverified : verifyChain cal sha256 i.stream.lines i.stream.chain = [])
    (hfresh : r.stamp ∉ i.ats) (happend : Appendable o (lastOf cal i.stream.lines) r) (hnote : r.note = some note) :
    importLines cal sha256 o (.row r :: rest) i = importLines cal sha256 o rest (i.push sha256 cal o r note) := by
  rw [importLines_cons, if_neg hfresh]
  simp only [hnote, append_row hread hnote, hverified]
  rw [if_neg]
  · rfl
  · rw [regress_iff]
    exact not_not.mpr happend.2

lemma importLines_stops (hread : Read cal o.beganAtMs r) (hverified : verifyChain cal sha256 i.stream.lines i.stream.chain = [])
    (hfresh : r.stamp ∉ i.ats) (hstop : ¬ Appendable o (lastOf cal i.stream.lines) r) :
    ∃ fault, importLines cal sha256 o (.row r :: rest) i = (.error fault, i.stream) := by
  rw [importLines_cons, if_neg hfresh]
  cases hnote : r.note with
  | none => exact ⟨_, rfl⟩
  | some note =>
    simp only [append_row hread hnote, hverified]
    rw [if_pos]
    · exact ⟨_, rfl⟩
    · rw [regress_iff]
      exact fun hlast => hstop ⟨by rw [hnote]; rfl, hlast⟩

lemma due_nil (cal : Calendar) (sha256 : Line → JsString) (o : OpenSession) (h : due ats log = []) :
    ∃ k, ∀ i : Importing, i.ats = ats → importLines cal sha256 o log i = (.ok (i.imported, i.skipped + k), i.stream) := by
  induction log with
  | nil => exact ⟨0, fun i _ => rfl⟩
  | cons x rest ih =>
    cases x with
    | skipped => exact ih h
    | fails => cases h
    | row r =>
      rw [due_row] at h
      split_ifs at h with hseen
      obtain ⟨k, hk⟩ := ih h
      refine ⟨k + 1, fun i hi => ?_⟩
      rw [importLines_cons, if_pos (hi ▸ hseen), hk { i with skipped := i.skipped + 1 } hi, Nat.add_assoc, Nat.add_comm 1]

/-- The import comes to the first of the lines that it does not skip. -/
lemma due_cons (cal : Calendar) (sha256 : Line → JsString) (o : OpenSession) {x : Option GateRow}
    {D : List (Option GateRow)} (h : due ats log = x :: D) :
    ∃ (y : LogLine) (rest : List LogLine) (k : ℕ), (∀ z ∈ y :: rest, z ∈ log) ∧
      (∀ i : Importing, i.ats = ats → importLines cal sha256 o log i =
        importLines cal sha256 o (y :: rest) { i with skipped := i.skipped + k }) ∧
      (x = none ∧ y = .fails ∨ ∃ r, x = some r ∧ y = .row r ∧ r.stamp ∉ ats ∧ due (r.stamp :: ats) rest = D) := by
  induction log with
  | nil => cases h
  | cons z log ih =>
    cases z with
    | skipped =>
      obtain ⟨y, rest, k, hsub, himport, hy⟩ := ih h
      exact ⟨y, rest, k, fun z hz => List.mem_cons_of_mem _ (hsub z hz), himport, hy⟩
    | fails =>
      cases h
      exact ⟨.fails, log, 0, fun _ hz => hz, fun _ _ => rfl, .inl ⟨rfl, rfl⟩⟩
    | row r =>
      rw [due_row] at h
      split_ifs at h with hseen
      · obtain ⟨y, rest, k, hsub, himport, hy⟩ := ih h
        refine ⟨y, rest, k + 1, fun z hz => List.mem_cons_of_mem _ (hsub z hz), fun i hi => ?_, hy⟩
        rw [importLines_cons, if_pos (hi ▸ hseen), himport { i with skipped := i.skipped + 1 } hi, Nat.add_assoc, Nat.add_comm 1]
      · cases h
        exact ⟨.row r, log, 0, fun _ hz => hz, fun _ _ => rfl, .inr ⟨r, rfl, rfl, hseen, rfl⟩⟩

def pushRow (cal : Calendar) (sha256 : Line → JsString) (o : OpenSession) (s : Stream) : Option GateRow → Stream
  | none => s
  | some r => pushLine sha256 s (rowLine cal o r (r.note.getD []))

/-- Lines are only ever added. -/
lemma importLines_grows (cal : Calendar) (sha256 : Line → JsString) (o : OpenSession) (log : List LogLine) (i : Importing) :
    i.stream.lines <+: (importLines cal sha256 o log i).2.lines := by
  induction log generalizing i with
  | nil => exact List.prefix_rfl
  | cons x rest ih =>
    cases x with
    | skipped => exact ih i
    | fails => exact List.prefix_rfl
    | row r =>
      rw [importLines_cons]
      split_ifs
      · exact ih { i with skipped := i.skipped + 1 }
      · cases hnote : r.note with
        | none => exact List.prefix_rfl
        | some note =>
          cases happend : appendSessionEvent cal sha256 (some o) i.stream gateRun note (some r.data) r.time with
          | error refusal =>
            simp only [happend]
            exact List.prefix_rfl
          | ok appended =>
            simp only [happend]
            refine List.IsPrefix.trans ?_ (ih _)
            unfold appendSessionEvent at happend
            simp only at happend
            split at happend
            · cases happend
            · split at happend
              · cases happend
              · split_ifs at happend
                cases happend
                exact List.prefix_append _ _

/-- The first row that is to be appended is, and the import goes on after it. -/
lemma importLines_step {D : List (Option GateRow)} (hlog : ∀ r, .row r ∈ log → Read cal o.beganAtMs r)
    (hverified : verifyChain cal sha256 i.stream.lines i.stream.chain = []) (hdue : due i.ats log = some r :: D)
    (happend : Appendable o (lastOf cal i.stream.lines) r) :
    ∃ (note : JsString) (rest : List LogLine) (k : ℕ), r.note = some note ∧ Read cal o.beganAtMs r ∧
      (∀ r, .row r ∈ rest → Read cal o.beganAtMs r) ∧ due (r.stamp :: i.ats) rest = D ∧
        importLines cal sha256 o log i =
          importLines cal sha256 o rest (Importing.push sha256 cal o { i with skipped := i.skipped + k } r note) := by
  obtain ⟨note, hnote⟩ := Option.isSome_iff_exists.mp happend.1
  obtain ⟨y, rest, k, hsub, himport, ⟨hnone, -⟩ | ⟨r', hr', rfl, hfresh, hrest⟩⟩ := due_cons cal sha256 o hdue
  · cases hnone
  · cases hr'
    have hread := hlog r (hsub _ List.mem_cons_self)
    refine ⟨note, rest, k, hnote, hread, fun r' hr' => hlog r' (hsub _ (List.mem_cons_of_mem _ hr')), hrest, ?_⟩
    rw [himport i rfl]
    exact importLines_row (i := { i with skipped := i.skipped + k }) hread hverified hfresh happend hnote

/-- The first of the lines stops the import before anything is appended. -/
lemma importLines_stopped {x : Option GateRow} {D : List (Option GateRow)} (hlog : ∀ r, .row r ∈ log → Read cal o.beganAtMs r)
    (hverified : verifyChain cal sha256 i.stream.lines i.stream.chain = []) (hdue : due i.ats log = x :: D)
    (hstop : ∀ r ∈ x, ¬ Appendable o (lastOf cal i.stream.lines) r) :
    ∃ fault, importLines cal sha256 o log i = (.error fault, i.stream) := by
  obtain ⟨y, rest, k, hsub, himport, ⟨-, rfl⟩ | ⟨r, rfl, rfl, hfresh, -⟩⟩ := due_cons cal sha256 o hdue
  · exact ⟨_, himport i rfl⟩
  · obtain ⟨fault, hfault⟩ : ∃ fault, importLines cal sha256 o (.row r :: rest) { i with skipped := i.skipped + k } =
        (.error fault, i.stream) :=
      importLines_stops (hlog r (hsub _ List.mem_cons_self)) hverified hfresh (hstop r rfl)
    exact ⟨fault, (himport i rfl).trans hfault⟩

/-- Every row is appended where the rows flow. -/
lemma importLines_flows {D : List (Option GateRow)} (hlog : ∀ r, .row r ∈ log → Read cal o.beganAtMs r)
    (hverified : verifyChain cal sha256 i.stream.lines i.stream.chain = []) (hanchored : Anchored i.stream)
    (hdue : due i.ats log = D) (hflows : Flows o (lastOf cal i.stream.lines) D) :
    ∃ k, importLines cal sha256 o log i = (.ok (i.imported + D.length, k), D.foldl (pushRow cal sha256 o) i.stream) ∧
      verifyChain cal sha256 (D.foldl (pushRow cal sha256 o) i.stream).lines (D.foldl (pushRow cal sha256 o) i.stream).chain = [] := by
  induction D generalizing log i with
  | nil =>
    obtain ⟨k, hk⟩ := due_nil cal sha256 o hdue
    exact ⟨i.skipped + k, hk i rfl, hverified⟩
  | cons x D ih =>
    cases x with
    | none => exact hflows.elim
    | some r =>
      obtain ⟨note, rest, k, hnote, hread, hrest, hdue', himport⟩ := importLines_step hlog hverified hdue hflows.1
      have hpush := verified_push hverified ⟨_, parse_rowLine hread hnote⟩
      have hflows' : Flows o (lastOf cal (pushLine sha256 i.stream (rowLine cal o r note)).lines) D := by
        rw [lastOf_push hread hnote]
        exact hflows.2
      obtain ⟨k', hk', hverified'⟩ := ih (i := Importing.push sha256 cal o { i with skipped := i.skipped + k } r note) hrest
        (hpush.mpr hanchored) (.inl (by simp [Importing.push, pushLine])) hdue' hflows'
      have hstart : pushRow cal sha256 o i.stream (some r) = pushLine sha256 i.stream (rowLine cal o r note) := by
        rw [pushRow, hnote, Option.getD_some]
      refine ⟨k', ?_, ?_⟩
      · rw [himport, hk', List.foldl_cons, hstart, List.length_cons]
        simp only [Importing.push, Nat.add_assoc, Nat.add_comm 1]
      · rw [List.foldl_cons, hstart]
        exact hverified'

/-- Where they do not, the import ends with a fault. -/
lemma importLines_faults {D : List (Option GateRow)} (hlog : ∀ r, .row r ∈ log → Read cal o.beganAtMs r)
    (hverified : verifyChain cal sha256 i.stream.lines i.stream.chain = []) (hanchored : Anchored i.stream)
    (hdue : due i.ats log = D) (hflows : ¬ Flows o (lastOf cal i.stream.lines) D) :
    ∃ fault s, importLines cal sha256 o log i = (.error fault, s) := by
  induction D generalizing log i with
  | nil => exact absurd trivial hflows
  | cons x D ih =>
    by_cases hstop : ∀ r ∈ x, ¬ Appendable o (lastOf cal i.stream.lines) r
    · obtain ⟨fault, hfault⟩ := importLines_stopped hlog hverified hdue hstop
      exact ⟨fault, _, hfault⟩
    · push Not at hstop
      obtain ⟨r, hr, happend⟩ := hstop
      cases hr
      obtain ⟨note, rest, k, hnote, hread, hrest, hdue', himport⟩ := importLines_step hlog hverified hdue happend
      have hpush := verified_push hverified ⟨_, parse_rowLine hread hnote⟩
      have hflows' : ¬ Flows o (lastOf cal (pushLine sha256 i.stream (rowLine cal o r note)).lines) D := by
        rw [lastOf_push hread hnote]
        exact fun h => hflows ⟨happend, h⟩
      rw [himport]
      exact ih (i := Importing.push sha256 cal o { i with skipped := i.skipped + k } r note) hrest
        (hpush.mpr hanchored) (.inl (by simp [Importing.push, pushLine])) hdue' hflows'

end Import

section Law

variable {cal : Calendar} {sha256 : Line → JsString} {o : OpenSession} {s : Stream} {log : List LogLine} {now : ℤ}
variable {file : Option (List Char)} {D : List (Option GateRow)} {r : GateRow} {ats : List JsString} {lines : List Line} {t : ℤ}

def IsGateRunAt (cal : Calendar) (t : ℤ) (line : Line) : Prop :=
  ∃ e ∈ eventAt cal line, e.kind = gateRun ∧ cal.parse e.stamp = some t

instance instDecidableIsGateRunAt (cal : Calendar) (t : ℤ) (line : Line) : Decidable (IsGateRunAt cal t line) :=
  decidable_of_iff ((eventAt cal line).any fun e => decide (e.kind = gateRun) && decide (cal.parse e.stamp = some t)) (by
    simp [IsGateRunAt, Option.any_eq_true])

def gateRunsAt (cal : Calendar) (lines : List Line) (t : ℤ) : ℕ := lines.countP (IsGateRunAt cal t ·)

def dueAt (D : List (Option GateRow)) (t : ℤ) : ℕ := D.countP fun x => x.any (·.time = t)

/-- One gate run for each instant of a row in the window, a chain that verifies, and nothing more to import; a refusal leaves
the stream and its chain. -/
structure ImportLaw (cal : Calendar) (sha256 : Line → JsString) (o : OpenSession) (file : Option (List Char)) (now : ℤ)
    (s : Stream) : Prop where
  returned : ∀ counts s', importGatesLog cal sha256 (some o) file now s = (.ok counts, s') →
    (∀ r, .row r ∈ logLines cal o now file → gateRunsAt cal s'.lines r.time = 1) ∧
      verifyChain cal sha256 s'.lines s'.chain = [] ∧
        ∃ skipped, importGatesLog cal sha256 (some o) file now s' = (.ok (0, skipped), s')
  refused : ∀ fault s', importGatesLog cal sha256 (some o) file now s = (.error fault, s') → s' = s

def toImport (cal : Calendar) (o : OpenSession) (file : Option (List Char)) (now : ℤ) (s : Stream) : List (Option GateRow) :=
  due (stampsOf cal s.lines) (logLines cal o now file)

/-- If a row is appended then all are that are to be; each of them spells its time as the ledger does, and is the only one at
its instant with the gate runs that are there. -/
structure Importable (cal : Calendar) (o : OpenSession) (file : Option (List Char)) (now : ℤ) (s : Stream) : Prop where
  flows : ∀ r rest, toImport cal o file now s = some r :: rest → Appendable o (lastOf cal s.lines) r →
    Anchored s ∧ Flows o (lastOf cal s.lines) (toImport cal o file now s)
  once : Flows o (lastOf cal s.lines) (toImport cal o file now s) →
    (∀ r, some r ∈ toImport cal o file now s → r.stamp = cal.toISOString r.time) ∧
      ∀ r, .row r ∈ logLines cal o now file → gateRunsAt cal s.lines r.time + dueAt (toImport cal o file now s) r.time = 1

lemma logLines_read (h : .row r ∈ logLines cal o now file) : Read cal o.beganAtMs r := by
  unfold logLines at h
  split at h
  · cases h
  · obtain ⟨line, -, hline⟩ := List.mem_map.mp h
    exact read_of_row hline

lemma due_fresh (h : some r ∈ due ats log) : r.stamp ∉ ats ∧ .row r ∈ log := by
  induction log generalizing ats with
  | nil => cases h
  | cons x log ih =>
    cases x with
    | skipped => exact (ih h).imp_right (List.mem_cons_of_mem _)
    | fails =>
      rw [due, List.mem_cons] at h
      rcases h with h | h
      · cases h
      · exact (ih h).imp_right (List.mem_cons_of_mem _)
    | row r' =>
      rw [due_row] at h
      split_ifs at h with hseen
      · exact (ih h).imp_right (List.mem_cons_of_mem _)
      · rcases List.mem_cons.mp h with h | h
        · cases h
          exact ⟨hseen, List.mem_cons_self⟩
        · obtain ⟨hnot, hmem⟩ := ih h
          exact ⟨fun hin => hnot (List.mem_cons_of_mem _ hin), List.mem_cons_of_mem _ hmem⟩

/-- A row is among those that are to be appended, or its stamp is there. -/
lemma due_covers (ats : List JsString) (h : .row r ∈ log) : r.stamp ∈ ats ∨ ∃ r', some r' ∈ due ats log ∧ r'.stamp = r.stamp := by
  induction log generalizing ats with
  | nil => cases h
  | cons x log ih =>
    cases x with
    | skipped => exact ih ats ((List.mem_cons.mp h).resolve_left (by simp))
    | fails =>
      refine (ih ats ((List.mem_cons.mp h).resolve_left (by simp))).imp_right ?_
      rintro ⟨r', hr', hstamp⟩
      exact ⟨r', List.mem_cons_of_mem _ hr', hstamp⟩
    | row x =>
      rw [due_row]
      by_cases hseen : x.stamp ∈ ats
      · rw [if_pos hseen]
        rcases List.mem_cons.mp h with h | h
        · cases h
          exact .inl hseen
        · exact ih ats h
      · rw [if_neg hseen]
        rcases List.mem_cons.mp h with h | h
        · cases h
          exact .inr ⟨r, List.mem_cons_self, rfl⟩
        · rcases ih (x.stamp :: ats) h with hmem | ⟨r', hr', hstamp⟩
          · rcases List.mem_cons.mp hmem with heq | hmem
            · exact .inr ⟨x, List.mem_cons_self, heq.symm⟩
            · exact .inl hmem
          · exact .inr ⟨r', List.mem_cons_of_mem _ hr', hstamp⟩

lemma none_mem_due (ats : List JsString) : none ∈ due ats log ↔ .fails ∈ log := by
  induction log generalizing ats with
  | nil => simp [due]
  | cons x log ih =>
    cases x with
    | skipped => simp [due, ih]
    | fails => simp [due]
    | row x =>
      rw [due_row]
      split_ifs <;> simp [ih]

lemma due_eq_nil_iff : due ats log = [] ↔ .fails ∉ log ∧ ∀ r, .row r ∈ log → r.stamp ∈ ats := by
  constructor
  · intro h
    rw [← none_mem_due ats, h]
    refine ⟨List.not_mem_nil, fun r hr => ?_⟩
    rcases due_covers ats hr with hin | ⟨r', hr', -⟩
    · exact hin
    · rw [h] at hr'
      cases hr'
  · rintro ⟨hfails, hall⟩
    refine List.eq_nil_iff_forall_not_mem.mpr fun x hx => ?_
    cases x with
    | none => exact hfails ((none_mem_due ats).mp hx)
    | some r => exact (due_fresh hx).1 (hall r (due_fresh hx).2)

lemma flows_none {last : Option Number} (h : Flows o last D) : none ∉ D := by
  induction D generalizing last with
  | nil => simp
  | cons x D ih =>
    cases x with
    | none => exact h.elim
    | some r => simp [ih h.2]

lemma flows_note {last : Option Number} (h : Flows o last D) (hr : some r ∈ D) : r.note.isSome := by
  induction D generalizing last with
  | nil => cases hr
  | cons x D ih =>
    cases x with
    | none => exact h.elim
    | some r' =>
      rcases List.mem_cons.mp hr with hr | hr
      · cases hr
        exact h.1.1
      · exact ih h.2 hr

def addedLine (cal : Calendar) (o : OpenSession) (r : GateRow) : Line := rowLine cal o r (r.note.getD [])

lemma pushed_lines (D : List (Option GateRow)) (s : Stream) :
    (D.foldl (pushRow cal sha256 o) s).lines = s.lines ++ D.filterMap (·.map (addedLine cal o)) := by
  induction D generalizing s with
  | nil => simp
  | cons x D ih =>
    rw [List.foldl_cons, ih]
    cases x <;> simp [pushRow, pushLine, addedLine]

lemma eventAt_added (hread : Read cal o.beganAtMs r) (hnote : r.note.isSome) :
    eventAt cal (addedLine cal o r) = some ⟨cal.toISOString r.time, elapsed o r, gateRun, r.note.getD [], some r.data⟩ := by
  obtain ⟨note, hn⟩ := Option.isSome_iff_exists.mp hnote
  rw [eventAt, addedLine, hn, Option.getD_some, parse_rowLine hread hn]
  rfl

lemma stampsOf_added (hread : ∀ r, some r ∈ D → Read cal o.beganAtMs r) (hnote : ∀ r, some r ∈ D → r.note.isSome) :
    stampsOf cal (D.filterMap (·.map (addedLine cal o))) = D.filterMap (·.map fun r => cal.toISOString r.time) := by
  rw [stampsOf, List.filterMap_filterMap]
  refine List.filterMap_congr fun x hx => ?_
  cases x with
  | none => rfl
  | some r => simp [eventAt_added (hread r hx) (hnote r hx)]

lemma gateRunsAt_added (hread : ∀ r, some r ∈ D → Read cal o.beganAtMs r) (hnote : ∀ r, some r ∈ D → r.note.isSome) (t : ℤ) :
    gateRunsAt cal (D.filterMap (·.map (addedLine cal o))) t = dueAt D t := by
  induction D with
  | nil => rfl
  | cons x D ih =>
    have ih' := ih (fun r hr => hread r (List.mem_cons_of_mem x hr)) fun r hr => hnote r (List.mem_cons_of_mem x hr)
    cases x with
    | none => simpa [gateRunsAt, dueAt] using ih'
    | some r =>
      have hevent := eventAt_added (hread r List.mem_cons_self) (hnote r List.mem_cons_self)
      have hat : IsGateRunAt cal t (addedLine cal o r) ↔ r.time = t := by
        simp [IsGateRunAt, hevent, cal.parse_iso]
      rw [List.filterMap_cons_some (by rfl), gateRunsAt, List.countP_cons, dueAt, List.countP_cons, ← gateRunsAt, ← dueAt, ih']
      simp [hat]

/-- What a whole import leaves. -/
def imported (cal : Calendar) (sha256 : Line → JsString) (o : OpenSession) (s : Stream) (D : List (Option GateRow)) : Stream :=
  D.foldl (pushRow cal sha256 o) s

lemma stampsOf_imported (sha256 : Line → JsString) (s : Stream) (hread : ∀ r, some r ∈ D → Read cal o.beganAtMs r)
    (hnote : ∀ r, some r ∈ D → r.note.isSome) :
    stampsOf cal (imported cal sha256 o s D).lines =
      stampsOf cal s.lines ++ D.filterMap (·.map fun r => cal.toISOString r.time) := by
  rw [← stampsOf_added hread hnote, imported, pushed_lines, stampsOf, List.filterMap_append]
  rfl

lemma gateRunsAt_imported (sha256 : Line → JsString) (s : Stream) (hread : ∀ r, some r ∈ D → Read cal o.beganAtMs r)
    (hnote : ∀ r, some r ∈ D → r.note.isSome) (t : ℤ) :
    gateRunsAt cal (imported cal sha256 o s D).lines t = gateRunsAt cal s.lines t + dueAt D t := by
  rw [← gateRunsAt_added hread hnote, imported, pushed_lines, gateRunsAt, List.countP_append]
  rfl

/-- A second import has nothing to append if and only if the rows of the first one are spelled as the ledger spells them. -/
lemma toImport_again (sha256 : Line → JsString) (hflows : Flows o (lastOf cal s.lines) (toImport cal o file now s)) :
    toImport cal o file now (imported cal sha256 o s (toImport cal o file now s)) = [] ↔
      ∀ r, some r ∈ toImport cal o file now s → r.stamp = cal.toISOString r.time := by
  have hread : ∀ r, some r ∈ toImport cal o file now s → Read cal o.beganAtMs r := fun r hr => logLines_read (due_fresh hr).2
  have hstamps := stampsOf_imported sha256 s hread fun r hr => flows_note hflows hr
  rw [toImport, due_eq_nil_iff, hstamps]
  constructor
  · rintro ⟨-, hall⟩ r hr
    obtain ⟨hnot, hmem⟩ := due_fresh hr
    have hin := (List.mem_append.mp (hall r hmem)).resolve_left hnot
    obtain ⟨x, hx, hstamp⟩ := List.mem_filterMap.mp hin
    obtain ⟨r', rfl, hr'⟩ := Option.map_eq_some_iff.mp hstamp
    have htime := cal.parse_iso r'.time
    rw [hr', (hread r hr).time, Option.some.injEq] at htime
    rw [← hr', htime]
  · intro hspelled
    refine ⟨fun hfails => flows_none hflows ((none_mem_due _).mpr hfails), fun r hr => ?_⟩
    rw [List.mem_append]
    rcases due_covers (stampsOf cal s.lines) hr with hin | ⟨r', hr', hstamp⟩
    · exact .inl hin
    · refine .inr (List.mem_filterMap.mpr ⟨some r', hr', ?_⟩)
      rw [Option.map_some, ← hspelled r' hr', hstamp]

lemma importGatesLog_eq : importGatesLog cal sha256 (some o) file now s =
    importLines cal sha256 o (logLines cal o now file) ⟨s, stampsOf cal s.lines, 0, 0⟩ := rfl

lemma import_idle (sha256 : Line → JsString) (hdue : toImport cal o file now s = []) :
    ∃ skipped, importGatesLog cal sha256 (some o) file now s = (.ok (0, skipped), s) := by
  obtain ⟨k, hk⟩ := due_nil cal sha256 o hdue
  exact ⟨_, hk ⟨s, stampsOf cal s.lines, 0, 0⟩ rfl⟩

lemma import_flows (hverified : verifyChain cal sha256 s.lines s.chain = []) (hanchored : Anchored s)
    (hflows : Flows o (lastOf cal s.lines) (toImport cal o file now s)) :
    ∃ counts, importGatesLog cal sha256 (some o) file now s =
        (.ok counts, imported cal sha256 o s (toImport cal o file now s)) ∧
      verifyChain cal sha256 (imported cal sha256 o s (toImport cal o file now s)).lines
        (imported cal sha256 o s (toImport cal o file now s)).chain = [] := by
  obtain ⟨k, hk, hverified'⟩ := importLines_flows (i := ⟨s, stampsOf cal s.lines, 0, 0⟩) (fun r => logLines_read) hverified
    hanchored rfl hflows
  exact ⟨_, hk, hverified'⟩

/-- Where a first row is appended, the stream is another one in the end. -/
lemma import_changes {rest : List (Option GateRow)} (hverified : verifyChain cal sha256 s.lines s.chain = [])
    (hdue : toImport cal o file now s = some r :: rest) (happend : Appendable o (lastOf cal s.lines) r) :
    (importGatesLog cal sha256 (some o) file now s).2.lines ≠ s.lines := by
  obtain ⟨note, later, k, -, -, -, -, himport⟩ := importLines_step (i := ⟨s, stampsOf cal s.lines, 0, 0⟩)
    (fun r => logLines_read) hverified hdue happend
  rw [importGatesLog_eq, himport]
  intro heq
  have hle := (importLines_grows cal sha256 o later
    (Importing.push sha256 cal o ⟨s, stampsOf cal s.lines, 0, 0 + k⟩ r note)).length_le
  rw [heq] at hle
  simp [Importing.push, pushLine] at hle

lemma import_stopped {x : Option GateRow} {rest : List (Option GateRow)}
    (hverified : verifyChain cal sha256 s.lines s.chain = []) (hdue : toImport cal o file now s = x :: rest)
    (hstop : ∀ r ∈ x, ¬ Appendable o (lastOf cal s.lines) r) :
    ∃ fault, importGatesLog cal sha256 (some o) file now s = (.error fault, s) :=
  importLines_stopped (i := ⟨s, stampsOf cal s.lines, 0, 0⟩) (fun _ => logLines_read) hverified hdue hstop

lemma import_unanchored {rest : List (Option GateRow)} (hverified : verifyChain cal sha256 s.lines s.chain = [])
    (hdue : toImport cal o file now s = some r :: rest) (happend : Appendable o (lastOf cal s.lines) r) (hanchored : ¬ Anchored s) :
    verifyChain cal sha256 (importGatesLog cal sha256 (some o) file now s).2.lines
      (importGatesLog cal sha256 (some o) file now s).2.chain ≠ [] := by
  obtain ⟨note, later, k, hnote, hread, hlater, -, himport⟩ := importLines_step (i := ⟨s, stampsOf cal s.lines, 0, 0⟩)
    (fun r => logLines_read) hverified hdue happend
  have hbroken : verifyChain cal sha256 (pushLine sha256 s (rowLine cal o r note)).lines
      (pushLine sha256 s (rowLine cal o r note)).chain ≠ [] :=
    mt (verified_push hverified ⟨_, parse_rowLine hread hnote⟩).mp hanchored
  have hstream : (Importing.push sha256 cal o ⟨s, stampsOf cal s.lines, 0, 0 + k⟩ r note).stream =
      pushLine sha256 s (rowLine cal o r note) := by
    rw [Importing.push]
  have hleft : (importLines cal sha256 o later (Importing.push sha256 cal o ⟨s, stampsOf cal s.lines, 0, 0 + k⟩ r note)).2 =
      (Importing.push sha256 cal o ⟨s, stampsOf cal s.lines, 0, 0 + k⟩ r note).stream := by
    apply importLines_broken hlater
    rw [hstream]
    exact hbroken
  rw [importGatesLog_eq, himport, hleft, hstream]
  exact hbroken

lemma importable_of_law (hverified : verifyChain cal sha256 s.lines s.chain = []) (h : ImportLaw cal sha256 o file now s) :
    Importable cal o file now s := by
  have hflows : ∀ r rest, toImport cal o file now s = some r :: rest → Appendable o (lastOf cal s.lines) r →
      Anchored s ∧ Flows o (lastOf cal s.lines) (toImport cal o file now s) := by
    intro r rest hdue happend
    have hchanges := import_changes hverified hdue happend
    have hanchored : Anchored s := by
      by_contra hunanchored
      have hbroken := import_unanchored hverified hdue happend hunanchored
      cases him : importGatesLog cal sha256 (some o) file now s with
      | mk result s' =>
        rw [him] at hchanges hbroken
        cases result with
        | error fault => exact hchanges (congrArg Stream.lines (h.refused fault s' him))
        | ok counts => exact hbroken (h.returned counts s' him).2.1
    refine ⟨hanchored, ?_⟩
    by_contra hno
    obtain ⟨fault, s', him⟩ := importLines_faults (i := ⟨s, stampsOf cal s.lines, 0, 0⟩) (fun r => logLines_read) hverified
      hanchored rfl hno
    rw [importGatesLog_eq, him] at hchanges
    exact hchanges (congrArg Stream.lines (h.refused fault s' him))
  refine ⟨hflows, fun hall => ?_⟩
  have hread : ∀ r, some r ∈ toImport cal o file now s → Read cal o.beganAtMs r := fun r hr => logLines_read (due_fresh hr).2
  have hcount := gateRunsAt_imported sha256 s hread fun r hr => flows_note hall hr
  obtain ⟨counts, him⟩ : ∃ counts, importGatesLog cal sha256 (some o) file now s =
      (.ok counts, imported cal sha256 o s (toImport cal o file now s)) := by
    cases hdue : toImport cal o file now s with
    | nil =>
      obtain ⟨k, hk⟩ := import_idle sha256 hdue
      exact ⟨_, hk⟩
    | cons x rest =>
      cases x with
      | none =>
        rw [hdue] at hall
        exact hall.elim
      | some r =>
        have happend : Appendable o (lastOf cal s.lines) r := by
          rw [hdue] at hall
          exact hall.1
        obtain ⟨counts, hcounts, -⟩ := import_flows hverified (hflows r rest hdue happend).1 hall
        rw [hdue] at hcounts
        exact ⟨counts, hcounts⟩
  obtain ⟨hcomplete, hverified', k, hagain⟩ := h.returned _ _ him
  refine ⟨(toImport_again sha256 hall).mp ?_, fun r hr => by rw [← hcount, hcomplete r hr]⟩
  cases hdue : toImport cal o file now (imported cal sha256 o s (toImport cal o file now s)) with
  | nil => rfl
  | cons x rest =>
    by_cases hstop : ∀ r ∈ x, ¬ Appendable o
        (lastOf cal (imported cal sha256 o s (toImport cal o file now s)).lines) r
    · obtain ⟨fault, hfault⟩ := import_stopped hverified' hdue hstop
      rw [hagain] at hfault
      cases hfault
    · push Not at hstop
      obtain ⟨r, hr, happend⟩ := hstop
      cases hr
      have hchanges := import_changes hverified' hdue happend
      rw [hagain] at hchanges
      exact absurd rfl hchanges

lemma law_of_importable (hverified : verifyChain cal sha256 s.lines s.chain = []) (h : Importable cal o file now s) :
    ImportLaw cal sha256 o file now s := by
  cases hdue : toImport cal o file now s with
  | nil =>
    obtain ⟨k, hk⟩ := import_idle sha256 hdue
    have hflows : Flows o (lastOf cal s.lines) (toImport cal o file now s) := by
      rw [hdue]
      trivial
    refine ⟨fun counts s' him => ?_, fun fault s' him => ?_⟩
    · rw [hk] at him
      cases him
      refine ⟨fun r hr => ?_, hverified, k, hk⟩
      have honce := (h.once hflows).2 r hr
      rwa [hdue] at honce
    · rw [hk] at him
      cases him
  | cons x rest =>
    by_cases hstop : ∀ r ∈ x, ¬ Appendable o (lastOf cal s.lines) r
    · obtain ⟨fault, hfault⟩ := import_stopped hverified hdue hstop
      refine ⟨fun counts s' him => ?_, fun fault' s' him => ?_⟩
      · rw [hfault] at him
        cases him
      · rw [hfault] at him
        cases him
        rfl
    · push Not at hstop
      obtain ⟨r, hr, happend⟩ := hstop
      cases hr
      obtain ⟨hanchored, hflows⟩ := h.flows r rest hdue happend
      obtain ⟨counts, hcounts, hverified'⟩ := import_flows hverified hanchored hflows
      obtain ⟨hspelled, honce⟩ := h.once hflows
      have hread : ∀ r, some r ∈ toImport cal o file now s → Read cal o.beganAtMs r := fun r hr => logLines_read (due_fresh hr).2
      refine ⟨fun counts' s' him => ?_, fun fault s' him => ?_⟩
      · rw [hcounts] at him
        cases him
        refine ⟨fun r hr => ?_, hverified', import_idle sha256 ((toImport_again sha256 hflows).mpr hspelled)⟩
        rw [gateRunsAt_imported sha256 s hread fun r hr => flows_note hflows hr]
        exact honce r hr
      · rw [hcounts] at him
        cases him

theorem gate_import_iff (hverified : verifyChain cal sha256 s.lines s.chain = []) :
    ImportLaw cal sha256 o file now s ↔ Importable cal o file now s :=
  ⟨importable_of_law hverified, law_of_importable hverified⟩

/-- The start of the epoch, as `Date` spells and as it reads it; the other times by their distance from it. -/
def epochISO (t : ℤ) : JsString :=
  if t = 0 then ofText "1970-01-01T00:00:00.000Z"
  else (if 0 < t then 43 else 45) :: List.replicate t.natAbs 48

def readEpochISO (text : JsString) : Option ℤ :=
  if text = ofText "1970-01-01T00:00:00.000Z" ∨ text = ofText "1970-01-01T00:00:00Z" then some 0
  else
    match text with
    | [] => none
    | u :: digits => if u = 43 then some digits.length else if u = 45 then some (-digits.length) else none

lemma readEpochISO_signed {u : UInt16} {digits : JsString} (hu : u = 43 ∨ u = 45) :
    readEpochISO (u :: digits) = if u = 43 then some (digits.length : ℤ) else some (-digits.length) := by
  have hne : ∀ rest : JsString, u :: digits ≠ 49 :: rest := by
    rintro rest h
    rw [List.cons.injEq] at h
    rcases hu with rfl | rfl <;> exact absurd h.1 (by decide)
  rw [readEpochISO, if_neg]
  · rcases hu with rfl | rfl <;> rfl
  · rintro (h | h) <;> exact hne _ h

lemma readEpochISO_epochISO (t : ℤ) : readEpochISO (epochISO t) = some t := by
  rw [epochISO]
  split_ifs with hzero hpos
  · rw [hzero]
    decide
  · rw [readEpochISO_signed (.inl rfl), if_pos rfl, List.length_replicate]
    congr 1
    omega
  · rw [readEpochISO_signed (.inr rfl), if_neg (by decide), List.length_replicate]
    congr 1
    omega

def epochCalendar : Calendar := ⟨readEpochISO, epochISO, readEpochISO_epochISO⟩

def epochSession : OpenSession := ⟨ofText "s1", ofText "m", ofText "a", epochISO 0, 0⟩

def epochLog : List Char := "\x7b\"at\":\"1970-01-01T00:00:00Z\"\x7d".toList

def emptyStream : Stream := ⟨[], ⟨[], genesis⟩⟩

def epochRow : GateRow := ⟨ofText "1970-01-01T00:00:00Z", 0, false, .null⟩

lemma parse_epochLog : parse epochLog = some (.object [(ofText "at", .string epochRow.stamp)]) := by
  have hrender : (Value.object [(ofText "at", .string epochRow.stamp)]).render = epochLog := by
    decide
  rw [← hrender]
  exact parse_render (.object (by simp) (by simp [Value.Plain.string]))

lemma epochLog_row : readLogLine epochCalendar 0 0 epochLog = .row epochRow := by
  have hblank : epochLog.all Library.Text.isBlank = false := by
    decide
  have htime : epochCalendar.parse epochRow.stamp = some 0 := by
    decide
  have hstamp : epochRow.stamp ≠ [] := by
    decide
  have hat : optionalProperty (.object [(ofText "at", .string epochRow.stamp)]) "at" = .string epochRow.stamp := by
    simp [optionalProperty_cons]
  have hok : optionalProperty (.object [(ofText "at", .string epochRow.stamp)]) "ok" = .undefined := by
    simp [optionalProperty_cons, optionalProperty_nil]
  have htests : optionalProperty (.object [(ofText "at", .string epochRow.stamp)]) "tests" = .undefined := by
    simp [optionalProperty_cons, optionalProperty_nil]
  rw [readLogLine, hblank, if_neg (by decide), parse_epochLog]
  simp only [hat, hok, htests, textOf, if_neg hstamp, htime]
  rfl

lemma toImport_epoch : toImport epochCalendar epochSession (some epochLog) 0 emptyStream = [some epochRow] := by
  have hlines : epochLog.splitOn '\n' = [epochLog] := by
    decide
  have hrow : readLogLine epochCalendar epochSession.beganAtMs 0 epochLog = .row epochRow := epochLog_row
  have hstamps : stampsOf epochCalendar emptyStream.lines = [] := rfl
  rw [toImport, logLines, hlines, List.map_singleton, hrow, hstamps, due_row, if_neg List.not_mem_nil, due]

lemma flows_epoch : Flows epochSession (lastOf epochCalendar emptyStream.lines) [some epochRow] := by
  refine ⟨⟨by decide, ?_⟩, trivial⟩
  rintro l hl
  cases hl

lemma epoch_verified : verifyChain epochCalendar (fun _ => []) emptyStream.lines emptyStream.chain = [] := by
  simp [verifyChain, emptyStream, linkIssues, eventFaults]

theorem gate_import_iff_epoch : ImportLaw epochCalendar (fun _ => []) epochSession (some epochLog) 0 emptyStream ↔
    Importable epochCalendar epochSession (some epochLog) 0 emptyStream :=
  gate_import_iff epoch_verified

theorem gate_import_again : ¬ ∀ (cal : Calendar) (sha256 : Line → JsString) (o : OpenSession) (file : Option (List Char))
    (now : ℤ) (s : Stream), verifyChain cal sha256 s.lines s.chain = [] → ImportLaw cal sha256 o file now s := by
  intro h
  have hlaw := h epochCalendar (fun _ => []) epochSession (some epochLog) 0 emptyStream epoch_verified
  have honce := (importable_of_law epoch_verified hlaw).once
  rw [toImport_epoch] at honce
  have hspelled := (honce flows_epoch).1 epochRow List.mem_cons_self
  revert hspelled
  decide

end Law

end VivimOmega.Gates

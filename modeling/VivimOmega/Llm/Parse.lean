import VivimOmega.Contracts.Parser
import VivimOmega.Library.Json.Reading
import VivimOmega.Llm.Sse

/-! The rows of a recorded stream, which is complete or refused. -/

namespace VivimOmega.Llm

open Library Library.Json Contracts

section Rows

def terminatorData : JsString := ofText "[DONE]"

def terminatorEvent : JsString := ofText "message_stop"

inductive Terminator
  | sentinel | event
  deriving DecidableEq

inductive SseChunkData
  | frame (source : FrameType) (eventType : Option JsString) (bytes : ℕ)
  | delta (text : JsString)
  | done (frames : ℕ) (terminator : Terminator)
  deriving DecidableEq

def isTerminator (f : SSEFrame) : Bool :=
  match f.type with
  | .data => Nlcl.trim f.value = terminatorData
  | .event => f.eventType = some terminatorEvent

/-- An array or a primitive has none of the members that are read. -/
def extractDelta (dataValue : JsString) : Option JsString :=
  let trimmed := Nlcl.trim dataValue
  if startsWith trimmed (ofText "\x7b") then
    match parse (wellFormed trimmed) with
    | none => none
    | some parsed =>
      match optionalProperty parsed "choices" with
      | .array (first :: _) =>
        match optionalProperty (optionalProperty first "delta") "content" with
        | .string content => some content
        | _ => none
      | _ => none
  else none

def summary (f : SSEFrame) : SseChunkData := .frame f.type f.eventType f.value.length

def frameRows (f : SSEFrame) : List (ParsedChunk SseChunkData) :=
  ⟨summary f, false⟩ :: (extractDelta f.value).toList.map fun text => ⟨.delta text, false⟩

def doneRow (total : ℕ) (f : SSEFrame) : ParsedChunk SseChunkData :=
  ⟨.done total (if f.type = .data then .sentinel else .event), true⟩

/-- The loop over the frames, which ends at a terminator. -/
def rowsOf (total : ℕ) : List SSEFrame → List (ParsedChunk SseChunkData)
  | [] => []
  | f :: rest => if isTerminator f then [doneRow total f] else frameRows f ++ rowsOf total rest

def frameName (f : SSEFrame) : String :=
  (match f.type with | .event => "event" | .data => "data") ++
    match f.eventType with
    | none => ""
    | some e => ":" ++ toText e

def parseSseStream (text : JsString) : Except String (List (ParsedChunk SseChunkData)) :=
  if text = [] then throw "provider-llm parser: stream text must be a non-empty string"
  else
    let (buffer, frames) := feed [] text
    if (feed buffer []).2 ≠ [] then
      throw "provider-llm parser: flush produced frames (buffering invariant broken)"
    else
      match frames.getLast? with
      | none =>
        throw "provider-llm parser: stream carried zero complete frames (recorded streams must be complete)"
      | some last =>
        if isTerminator last then return rowsOf frames.length frames
        else throw ("provider-llm parser: stream is unterminated (last frame is " ++ frameName last ++
          "; want data:[DONE] or event:message_stop) — refusing (fail-closed, an unterminated stream cannot terminate lawfully)")

end Rows

section Completeness

variable {text : JsString} {f t : SSEFrame} {before : List SSEFrame}

def frameRow? : SseChunkData → Option SseChunkData
  | .frame source eventType bytes => some (.frame source eventType bytes)
  | _ => none

def deltaRow? : SseChunkData → Option JsString
  | .delta text => some text
  | _ => none

/-- A stream that ends with the blank line after its terminator, the only one. -/
def Complete (text : JsString) (before : List SSEFrame) (t : SSEFrame) : Prop :=
  ∃ lines last, text = rejoin newline (lines ++ [last]) [] ∧ (∀ line ∈ lines ++ [last], newline ∉ line) ∧
    Nlcl.trim last = [] ∧ readLines {} lines = before ∧ (readLine (leftOver {} lines) last).2 = [t] ∧
      (∀ f ∈ before, isTerminator f = false) ∧ isTerminator t = true

/-- Rows for a complete stream, and a refusal for any other. -/
def CompleteOrRefused (text : JsString) : Prop :=
  (∀ rows, parseSseStream text = .ok rows → ∃ before t, Complete text before t ∧
    (rows.map ParsedChunk.data).filterMap frameRow? = before.map summary ∧
      (rows.map ParsedChunk.data).filterMap deltaRow? = before.filterMap (fun f => extractDelta f.value) ∧
        ∀ streamId, streamId ≠ "" → ∃ built, buildChunkEnvelope streamId rows = .ok built) ∧
  ((¬ ∃ before t, Complete text before t) → ∃ err, parseSseStream text = .error err)

/-- The lines after the one that pushes the first terminator. -/
def afterTerminator : Unfinished → List JsString → Option (List JsString)
  | _, [] => none
  | p, line :: rest =>
    if (readLine p line).2.any isTerminator then some rest else afterTerminator (readLine p line).1 rest

lemma parse_ok_iff {rows : List (ParsedChunk SseChunkData)} : parseSseStream text = .ok rows ↔
    (readLines {} (cutAt newline text).1).getLast?.any isTerminator = true ∧
      rows = rowsOf (readLines {} (cutAt newline text).1).length (readLines {} (cutAt newline text).1) := by
  have hfeed : feed [] text = ((cutAt newline text).2, readLines {} (cutAt newline text).1) := rfl
  have hflush : (feed (cutAt newline text).2 []).2 = [] := by
    rw [feed, List.append_nil, cutAt_open (cutAt_snd text)]
    rfl
  unfold parseSseStream
  split_ifs with hnil
  · subst hnil
    simp [cutAt, readLines]
  · rw [hfeed]
    dsimp only
    rw [hflush, if_neg (by simp)]
    cases hlast : (readLines {} (cutAt newline text).1).getLast? with
    | none => simp
    | some last =>
      dsimp only
      split_ifs with hterm
      · simp [hterm, pure, Except.pure, eq_comm]
      · simp [hterm]

lemma frames_cases (p : Unfinished) (line : JsString) : (readLine p line).2 = [] ∨
    (Nlcl.trim line = [] ∧ ∃ f, (readLine p line).2 = [f]) := by
  unfold readLine
  split_ifs with _ _ hblank
  · exact .inl rfl
  · exact .inl rfl
  · unfold Unfinished.frames
    split_ifs
    · exact .inl rfl
    · exact .inr ⟨hblank, _, rfl⟩
    · exact .inr ⟨hblank, _, rfl⟩
  · exact .inl rfl

/-- By the lines before the one that pushes the first terminator. -/
lemma afterTerminator_iff (p : Unfinished) (lines rest : List JsString) : afterTerminator p lines = some rest ↔
    ∃ front line t, lines = front ++ line :: rest ∧ (∀ f ∈ readLines p front, isTerminator f = false) ∧
      Nlcl.trim line = [] ∧ (readLine (leftOver p front) line).2 = [t] ∧ isTerminator t = true := by
  induction lines generalizing p with
  | nil => simp [afterTerminator]
  | cons line tail ih =>
    rw [afterTerminator]
    constructor
    · intro h
      split_ifs at h with hterm
      · cases h
        obtain hnone | ⟨hblank, t, ht⟩ := frames_cases p line
        · rw [hnone] at hterm
          cases hterm
        · rw [ht] at hterm
          exact ⟨[], line, t, rfl, by simp [readLines], hblank, ht, by simpa using hterm⟩
      · obtain ⟨front, l, t, rfl, hfront, hrest⟩ := (ih _).mp h
        refine ⟨line :: front, l, t, rfl, ?_, hrest⟩
        rw [readLines]
        refine List.forall_mem_append.mpr ⟨?_, hfront⟩
        simpa using hterm
    · rintro ⟨front, l, t, heq, hfront, hblank, ht, hterm⟩
      cases front with
      | nil =>
        obtain ⟨rfl, rfl⟩ := List.cons.inj heq
        have hany : (readLine p line).2.any isTerminator = true := by
          rw [show (readLine p line).2 = [t] from ht]
          simpa using hterm
        rw [if_pos hany]
      | cons first front =>
        obtain ⟨rfl, rfl⟩ := List.cons.inj heq
        rw [readLines] at hfront
        obtain ⟨hfirst, hfront⟩ := List.forall_mem_append.mp hfront
        have hany : ¬ (readLine p line).2.any isTerminator = true := by simpa using hfirst
        rw [if_neg hany]
        exact (ih _).mpr ⟨front, l, t, rfl, hfront, hblank, ht, hterm⟩

lemma complete_iff : (∃ before t, Complete text before t) ↔
    afterTerminator {} (cutAt newline text).1 = some [] ∧ (cutAt newline text).2 = [] := by
  rw [afterTerminator_iff]
  constructor
  · rintro ⟨before, t, lines, last, rfl, hfree, hblank, rfl, ht, hbefore, hterm⟩
    rw [cutAt_rejoin hfree (by simp)]
    exact ⟨⟨lines, last, t, rfl, hbefore, hblank, ht, hterm⟩, rfl⟩
  · rintro ⟨⟨lines, last, t, hlines, hbefore, hblank, ht, hterm⟩, hleft⟩
    refine ⟨readLines {} lines, t, lines, last, ?_, ?_, hblank, rfl, ht, hbefore, hterm⟩
    · rw [← hlines, ← hleft, rejoin_cutAt]
    · rw [← hlines]
      exact cutAt_fst text

lemma Complete.frames (h : Complete text before t) : readLines {} (cutAt newline text).1 = before ++ [t] ∧
    (∀ f ∈ before, isTerminator f = false) ∧ isTerminator t = true := by
  obtain ⟨lines, last, rfl, hfree, _, rfl, ht, hbefore, hterm⟩ := h
  refine ⟨?_, hbefore, hterm⟩
  rw [cutAt_rejoin hfree (by simp), readLines_append, readLines, ht]
  rfl

lemma rowsOf_terminated (total : ℕ) (hbefore : ∀ f ∈ before, isTerminator f = false) (ht : isTerminator t = true) :
    rowsOf total (before ++ [t]) = before.flatMap frameRows ++ [doneRow total t] := by
  induction before with
  | nil => simp [rowsOf, ht]
  | cons f rest ih =>
    obtain ⟨hf, hrest⟩ := List.forall_mem_cons.mp hbefore
    rw [List.cons_append, rowsOf, if_neg (by simp [hf]), ih hrest, List.flatMap_cons, List.append_assoc]

lemma frames_frameRows (before : List SSEFrame) :
    ((before.flatMap frameRows).map ParsedChunk.data).filterMap frameRow? = before.map summary := by
  induction before with
  | nil => rfl
  | cons f rest ih =>
    rw [List.flatMap_cons, List.map_append, List.filterMap_append, ih]
    cases hdelta : extractDelta f.value <;> simp [frameRows, hdelta, summary, frameRow?]

lemma deltas_frameRows (before : List SSEFrame) : ((before.flatMap frameRows).map ParsedChunk.data).filterMap deltaRow? =
    before.filterMap (fun f => extractDelta f.value) := by
  induction before with
  | nil => rfl
  | cons f rest ih =>
    rw [List.flatMap_cons, List.map_append, List.filterMap_append, ih]
    cases hdelta : extractDelta f.value with
    | none => simp [frameRows, hdelta, summary, deltaRow?]
    | some text =>
      simp only [frameRows, hdelta, List.filterMap_cons]
      rfl

lemma final_frameRows (before : List SSEFrame) : ∀ c ∈ before.flatMap frameRows, c.final = false := by
  intro c hc
  obtain ⟨f, _, hc⟩ := List.mem_flatMap.mp hc
  obtain rfl | hc := List.mem_cons.mp hc
  · rfl
  · obtain ⟨text, _, rfl⟩ := List.mem_map.mp hc
    rfl

lemma Complete.rows (h : Complete text before t) {rows : List (ParsedChunk SseChunkData)}
    (hrows : parseSseStream text = .ok rows) :
    (rows.map ParsedChunk.data).filterMap frameRow? = before.map summary ∧
      (rows.map ParsedChunk.data).filterMap deltaRow? = before.filterMap (fun f => extractDelta f.value) ∧
        ∀ streamId, streamId ≠ "" → ∃ built, buildChunkEnvelope streamId rows = .ok built := by
  obtain ⟨hframes, hbefore, hterm⟩ := h.frames
  obtain ⟨_, rfl⟩ := parse_ok_iff.mp hrows
  rw [hframes, rowsOf_terminated _ hbefore hterm]
  refine ⟨?_, ?_, fun streamId hid => buildChunkEnvelope_ok hid (final_frameRows before) rfl⟩
  · rw [List.map_append, List.filterMap_append, frames_frameRows]
    exact List.append_nil _
  · rw [List.map_append, List.filterMap_append, deltas_frameRows]
    exact List.append_nil _

/-- A stream is complete or refused exactly where its last frame is no terminator, or nothing stands after the blank
line of its first one. -/
theorem complete_or_refused_iff (text : JsString) : CompleteOrRefused text ↔
    ((readLines {} (cutAt newline text).1).getLast?.any isTerminator = true →
      afterTerminator {} (cutAt newline text).1 = some [] ∧ (cutAt newline text).2 = []) := by
  rw [← complete_iff]
  constructor
  · rintro ⟨hok, _⟩ hlast
    obtain ⟨before, t, hcomplete, _⟩ := hok _ (parse_ok_iff.mpr ⟨hlast, rfl⟩)
    exact ⟨before, t, hcomplete⟩
  · intro h
    refine ⟨fun rows hrows => ?_, fun hnot => ?_⟩
    · obtain ⟨before, t, hcomplete⟩ := h (parse_ok_iff.mp hrows).1
      exact ⟨before, t, hcomplete, hcomplete.rows hrows⟩
    · cases hparse : parseSseStream text with
      | error err => exact ⟨err, rfl⟩
      | ok rows => exact absurd (h (parse_ok_iff.mp hparse).1) hnot

/-- A field line after the terminator is dropped. -/
theorem trailing_data_dropped : ¬ CompleteOrRefused (ofText "data: [DONE]\n\ndata: more\n") := by
  rw [complete_or_refused_iff]
  decide

end Completeness

end VivimOmega.Llm

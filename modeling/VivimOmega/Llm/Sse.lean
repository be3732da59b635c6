import VivimOmega.Library.Lines
import VivimOmega.Nlcl.Text

/-! Server-sent event frames out of a stream that arrives in chunks. -/

namespace VivimOmega.Llm

open Library Library.Json

section Frames

inductive FrameType
  | event | data
  deriving DecidableEq

structure SSEFrame where
  type : FrameType
  value : JsString
  eventType : Option JsString
  deriving DecidableEq

/-- The frame that the fields read so far belong to. -/
structure Unfinished where
  currentData : JsString := []
  currentEvent : JsString := []
  deriving DecidableEq

def newline : UInt16 := 10

def startsWith (line p : JsString) : Bool := p.isPrefixOf line

def eventField : JsString := ofText "event:"

def dataField : JsString := ofText "data:"

def joinData (data value : JsString) : JsString := data ++ (if data = [] then [] else [newline]) ++ value

/-- What a blank line pushes. -/
def Unfinished.frames (p : Unfinished) : List SSEFrame :=
  if p.currentData = [] ∧ p.currentEvent = [] then []
  else if p.currentEvent = [] then [⟨.data, p.currentData, none⟩]
  else [⟨.event, p.currentData, some p.currentEvent⟩]

def readLine (p : Unfinished) (line : JsString) : Unfinished × List SSEFrame :=
  if startsWith line eventField then ({ p with currentEvent := Nlcl.trim (line.drop 6) }, [])
  else if startsWith line dataField then
    ({ p with currentData := joinData p.currentData (Nlcl.trim (line.drop 5)) }, [])
  else if Nlcl.trim line = [] then ({}, p.frames)
  else (p, [])

def readLines : Unfinished → List JsString → List SSEFrame
  | _, [] => []
  | p, line :: rest => (readLine p line).2 ++ readLines (readLine p line).1 rest

/-- The fields that the lines leave without a blank line after them. -/
def leftOver (p : Unfinished) (lines : List JsString) : Unfinished := lines.foldl (fun p line => (readLine p line).1) p

/-- `feed`: the buffer it leaves and the frames it returns. -/
def feed (buffer chunk : JsString) : JsString × List SSEFrame :=
  ((cutAt newline (buffer ++ chunk)).2, readLines {} (cutAt newline (buffer ++ chunk)).1)

def feedAll : JsString → List JsString → List SSEFrame
  | _, [] => []
  | buffer, chunk :: rest => (feed buffer chunk).2 ++ feedAll (feed buffer chunk).1 rest

def ChunkInvariant (chunks : List JsString) : Prop := feedAll [] chunks = (feed [] chunks.flatten).2

lemma readLines_append (p : Unfinished) (lines rest : List JsString) :
    readLines p (lines ++ rest) = readLines p lines ++ readLines (leftOver p lines) rest := by
  induction lines generalizing p with
  | nil => rfl
  | cons line lines ih =>
    rw [List.cons_append, readLines, readLines, ih, List.append_assoc]
    rfl

lemma feedAll_eq (buffer : JsString) (chunks : List JsString) :
    feedAll buffer chunks = (arrivals newline buffer chunks).flatMap (readLines {}) := by
  induction chunks generalizing buffer with
  | nil => rfl
  | cons chunk rest ih =>
    rw [feedAll, arrivals, List.flatMap_cons, ih]
    rfl

end Frames

section Losses

/-- What a frame says. -/
def weight (frames : List SSEFrame) : ℕ := (frames.map fun f => 1 + f.value.length + (f.eventType.getD []).length).sum

lemma weight_append (fs gs : List SSEFrame) : weight (fs ++ gs) = weight fs + weight gs := by
  simp [weight]

/-- Whether a frame that loses its data, or its event name, before these lines comes to be pushed without it. -/
def lost (data event : Bool) : List JsString → Bool
  | [] => false
  | line :: rest =>
    if startsWith line eventField then lost data false rest
    else if startsWith line dataField then lost data event rest
    else if Nlcl.trim line = [] then data || event
    else lost data event rest

/-- The fields of a frame, and those that are left of them. -/
structure Behind (data event : Bool) (c w : Unfinished) : Prop where
  sameData : data = false → c.currentData = w.currentData
  lessData : data = true → c.currentData.length < w.currentData.length
  sameEvent : event = false → c.currentEvent = w.currentEvent
  lostEvent : event = true → c.currentEvent = [] ∧ w.currentEvent ≠ []

variable {data event : Bool} {c w : Unfinished}

lemma length_joinData (d v : JsString) : (joinData d v).length = d.length + (if d = [] then 0 else 1) + v.length := by
  simp only [joinData, List.length_append]
  split_ifs <;> rfl

lemma Behind.join (h : Behind data event c w) (v : JsString) :
    Behind data event { c with currentData := joinData c.currentData v } { w with currentData := joinData w.currentData v } where
  sameData hd := by rw [h.sameData hd]
  lessData hd := by
    have hless := h.lessData hd
    have hne : w.currentData ≠ [] := by
      intro hnil
      rw [hnil] at hless
      simp at hless
    simp only [length_joinData, if_neg hne]
    split_ifs <;> omega
  sameEvent := h.sameEvent
  lostEvent := h.lostEvent

lemma Behind.rename (h : Behind data event c w) (v : JsString) :
    Behind data false { c with currentEvent := v } { w with currentEvent := v } where
  sameData := h.sameData
  lessData := h.lessData
  sameEvent _ := rfl
  lostEvent he := by cases he

lemma weight_frames (p : Unfinished) : weight p.frames =
    if p = {} then 0 else 1 + p.currentData.length + p.currentEvent.length := by
  obtain ⟨d, e⟩ := p
  unfold Unfinished.frames
  split_ifs <;> simp_all [weight]

lemma Behind.frames_lt (h : Behind data event c w) (hd : (data || event) = true) : weight c.frames < weight w.frames := by
  have hdata : c.currentData.length ≤ w.currentData.length := by
    cases data with
    | true => exact (h.lessData rfl).le
    | false => rw [h.sameData rfl]
  have hevent : c.currentEvent.length ≤ w.currentEvent.length := by
    cases event with
    | true =>
      rw [(h.lostEvent rfl).1]
      exact Nat.zero_le _
    | false => rw [h.sameEvent rfl]
  have hless : c.currentData.length + c.currentEvent.length < w.currentData.length + w.currentEvent.length := by
    cases data with
    | true =>
      have := h.lessData rfl
      omega
    | false =>
      obtain rfl : event = true := by simpa using hd
      have hpos := List.length_pos_iff.mpr (h.lostEvent rfl).2
      rw [(h.lostEvent rfl).1, List.length_nil]
      omega
  have hne : w ≠ {} := by
    rintro rfl
    simp at hless
  rw [weight_frames, weight_frames, if_neg hne]
  split_ifs <;> omega

lemma Behind.eq (h : Behind false false c w) : c = w := by
  obtain ⟨d, e⟩ := c
  obtain ⟨d', e'⟩ := w
  obtain rfl : d = d' := h.sameData rfl
  obtain rfl : e = e' := h.sameEvent rfl
  rfl

/-- By the lines: up to the next blank one what is behind stays so, and after it the two agree. -/
lemma Behind.readLines (h : Behind data event c w) (lines : List JsString) :
    (lost data event lines = false → readLines c lines = readLines w lines) ∧
      (lost data event lines = true → weight (readLines c lines) < weight (readLines w lines)) := by
  induction lines generalizing data event c w with
  | nil => exact ⟨fun _ => rfl, fun hl => by cases hl⟩
  | cons line rest ih =>
    simp only [Llm.readLines, readLine, lost]
    split_ifs
    · exact ih (h.rename _)
    · exact ih (h.join _)
    · refine ⟨fun hl => ?_, fun hl => ?_⟩
      · obtain ⟨rfl, rfl⟩ := Bool.or_eq_false_iff.mp hl
        rw [h.eq]
      · rw [weight_append, weight_append]
        exact Nat.add_lt_add_right (h.frames_lt hl) _
    · exact ih h

end Losses

section Cuts

/-- Nothing of a frame that a feed leaves unfinished is missing when a later feed pushes it. -/
def kept : List (List JsString) → Bool
  | [] => true
  | lines :: rest =>
    !lost (decide ((leftOver {} lines).currentData ≠ [])) (decide ((leftOver {} lines).currentEvent ≠ [])) rest.flatten &&
      kept rest

lemma behind_empty (p : Unfinished) : Behind (decide (p.currentData ≠ [])) (decide (p.currentEvent ≠ [])) {} p where
  sameData hd := by simpa using (of_decide_eq_false hd)
  lessData hd := List.length_pos_iff.mpr (of_decide_eq_true hd)
  sameEvent he := by simpa using (of_decide_eq_false he)
  lostEvent he := ⟨rfl, of_decide_eq_true he⟩

/-- By the feeds: their frames are those of the whole, or they say less. -/
lemma feeds_cases (groups : List (List JsString)) :
    (kept groups = true → groups.flatMap (readLines {}) = readLines {} groups.flatten) ∧
      (kept groups = false → weight (groups.flatMap (readLines {})) < weight (readLines {} groups.flatten)) := by
  induction groups with
  | nil => exact ⟨fun _ => rfl, fun hk => by cases hk⟩
  | cons lines rest ih =>
    obtain ⟨hsame, hless⟩ := (behind_empty (leftOver {} lines)).readLines rest.flatten
    rw [List.flatMap_cons, List.flatten_cons, readLines_append, kept]
    refine ⟨fun hk => ?_, fun hk => ?_⟩
    · obtain ⟨hl, hrest⟩ := Bool.and_eq_true_iff.mp hk
      rw [ih.1 hrest, hsame (by simpa using hl)]
    · rw [weight_append, weight_append]
      apply Nat.add_lt_add_left
      have hmiddle : weight (rest.flatMap (readLines {})) ≤ weight (readLines {} rest.flatten) := by
        cases hrest : kept rest with
        | true => rw [ih.1 hrest]
        | false => exact (ih.2 hrest).le
      cases hl : lost (decide ((leftOver {} lines).currentData ≠ [])) (decide ((leftOver {} lines).currentEvent ≠ []))
          rest.flatten with
      | true => exact hmiddle.trans_lt (hless hl)
      | false =>
        rw [hl] at hk
        rw [← hsame hl]
        exact ih.2 (by simpa using hk)

/-- The frames do not depend on how the stream is cut exactly where no feed leaves something of a frame behind that a
later one pushes without it. -/
theorem chunk_invariant_iff (chunks : List JsString) :
    ChunkInvariant chunks ↔ kept (arrivals newline [] chunks) = true := by
  have hlines : (arrivals newline [] chunks).flatten = (cutAt newline ([] ++ chunks.flatten)).1 :=
    flatten_arrivals (by simp) chunks
  rw [ChunkInvariant, feedAll_eq, feed, ← hlines]
  obtain ⟨hsame, hless⟩ := feeds_cases (arrivals newline [] chunks)
  refine ⟨fun heq => ?_, hsame⟩
  by_contra hk
  have hlt := hless (by simpa using hk)
  rw [heq] at hlt
  exact lt_irrefl _ hlt

/-- A cut between a data line and the blank line after it loses the frame. -/
theorem chunk_frame_lost : ¬ ChunkInvariant [ofText "data: hi\n", ofText "\n"] := by
  rw [chunk_invariant_iff]
  decide

end Cuts

end VivimOmega.Llm

import VivimOmega.Library.Framing
import VivimOmega.Library.Json.Stringify
import VivimOmega.Library.Transition

/-! The three readers of newline-delimited JSON: the lines of a spawned process, the daemon's client and its server. -/

namespace VivimOmega.Daemon

open Library Library.Json Library.Utf8 Library.Json.Value

abbrev Chunk := List UInt8

/-- A line that is not empty, and what `JSON.parse` made of it. -/
abbrev Decoded := List Char × Option Value

def decoded (text : List Char) : Decoded := (text, parse text)

/-- A message as it was sent. -/
def exactly (message : Value) : Decoded := (message.render, some message)

/-- What `write(JSON.stringify(message) + "\n")` sends. -/
def sent (messages : List Value) : Chunk := encode (frame (messages.map Value.render))

namespace PlatformSpawn

/-- `replace(/\r$/, "")` -/
def withoutReturn (line : List Char) : List Char := if line.getLast? = some '\r' then line.dropLast else line

structure Reader where
  decoder : Option Partial
  stdoutBuf : List Char
  handed : List Decoded

def init : Reader := ⟨none, [], []⟩

def onData (r : Reader) (chunk : Chunk) : Reader :=
  let text := feed r.decoder chunk
  let lines := cutLines (r.stdoutBuf ++ text.1)
  { decoder := text.2
    stdoutBuf := lines.2
    handed := r.handed ++ ((lines.1.map withoutReturn).filter (· ≠ [])).map decoded }

end PlatformSpawn

namespace CallDaemon

inductive Outcome
  | waiting
  | resolved (resp : Value)
  | threw

structure Call where
  buf : List Char
  handed : List Decoded
  outcome : Outcome

def init : Call := ⟨[], [], .waiting⟩

/-- The loop over the lines that have ended: it returns at the response, and a `null` has no `id` to read. -/
def readLines (id : Number) : List (List Char) → List Decoded × Outcome
  | [] => ([], .waiting)
  | line :: rest =>
    let text := trim line
    if text = [] then readLines id rest
    else match parse text with
      | none => ((text, none) :: (readLines id rest).1, (readLines id rest).2)
      | some resp =>
        match property resp "id" with
        | .error _ => ([(text, some resp)], .threw)
        | .ok (.number n) =>
          if n = id then ([(text, some resp)], .resolved resp)
          else ((text, some resp) :: (readLines id rest).1, (readLines id rest).2)
        | .ok _ => ((text, some resp) :: (readLines id rest).1, (readLines id rest).2)

def onData (id : Number) (c : Call) (chunk : Chunk) : Call :=
  match c.outcome with
  | .waiting =>
    let lines := cutLines (c.buf ++ decodeFrom none chunk)
    { buf := lines.2, handed := c.handed ++ (readLines id lines.1).1, outcome := (readLines id lines.1).2 }
  | _ => c

end CallDaemon

namespace StartDaemon

/-- A connection: each loop waits for `handle` with the lines behind its request. -/
structure Connection where
  buf : List Char
  loops : List (Value × List (List Char))
  handed : List Decoded
  crashed : Bool

def init : Connection := ⟨[], [], [], false⟩

/-- A loop until it awaits `handle`. -/
def readLines : List (List Char) → List Decoded × Option (Value × List (List Char))
  | [] => ([], none)
  | line :: rest =>
    let text := trim line
    if text = [] then readLines rest
    else match parse text with
      | none => ((text, none) :: (readLines rest).1, (readLines rest).2)
      | some req => ([(text, some req)], some (req, rest))

inductive Event
  | data (chunk : Chunk)
  | handled (loop : ℕ)

/-- `handle(null)` rejects, and nothing catches it. -/
def step (s : Connection) (e : Event) : Option Connection :=
  if s.crashed then none
  else match e with
    | .data chunk =>
      let lines := cutLines (s.buf ++ decodeFrom none chunk)
      some { s with
        buf := lines.2
        loops := s.loops ++ (readLines lines.1).2.toList
        handed := s.handed ++ (readLines lines.1).1 }
    | .handled i =>
      match s.loops[i]? with
      | none => none
      | some (.null, _) => some { s with crashed := true }
      | some (_, rest) =>
        some { s with
          loops := match (readLines rest).2 with
            | none => s.loops.eraseIdx i
            | some loop => s.loops.set i loop
          handed := s.handed ++ (readLines rest).1 }

/-- One connection of the server, with the requests handled in any order that the loops allow. -/
def connections : System Connection Event where
  init s := s = init
  step := step

/-- The bytes that have arrived. -/
def arrived (steps : List (Connection × Event × Connection)) : Chunk :=
  steps.flatMap fun x => match x.2.1 with
    | .data chunk => chunk
    | .handled _ => []

/-- A chunk ends no character in its middle, and ends no line while others wait to be read. -/
def Orderly (s : Connection) : Event → Prop
  | .data chunk => Aligned chunk ∧ ((∀ loop ∈ s.loops, loop.2 = []) ∨ '\n' ∉ decodeFrom none chunk)
  | .handled _ => True

instance decidableOrderly (s : Connection) (e : Event) : Decidable (Orderly s e) := by
  cases e <;> unfold Orderly <;> infer_instance

end StartDaemon

section Lines

variable {messages : List Value}

lemma message_lines (h : ∀ m ∈ messages, Plain m) : ∀ text ∈ messages.map Value.render, '\n' ∉ text := by
  simp only [List.forall_mem_map]
  exact fun m hm => render_line (h m hm)

lemma decode_sent (h : ∀ m ∈ messages, Plain m) {chunk : Chunk} (hsent : chunk = sent messages) :
    cutLines (feed none chunk).1 = (messages.map Value.render, []) := by
  rw [hsent, sent, encode, feed_encoded]
  exact cutLines_frame (message_lines h)

lemma decoded_render {m : Value} (h : Plain m) : decoded m.render = exactly m := by
  rw [decoded, parse_render h]
  rfl

lemma map_decoded (h : ∀ m ∈ messages, Plain m) : (messages.map Value.render).map decoded = messages.map exactly := by
  rw [List.map_map]
  exact List.map_congr_left fun m hm => decoded_render (h m hm)

end Lines

namespace PlatformSpawn

variable {messages : List Value}

lemma onData_append (a b : Chunk) : onData (onData init a) b = onData init (a ++ b) := by
  have hcut := cutLines_append (feed none a).1 (feed (feed none a).2 b).1
  simp only [onData, init, List.nil_append, feed_append, hcut, List.map_append, List.filter_append]

lemma foldl_onData (chunks : List Chunk) : chunks.foldl onData init = onData init chunks.flatten := by
  induction chunks using List.reverseRecOn with
  | nil => rfl
  | append_singleton chunks chunk ih =>
    rw [List.foldl_append, ih, List.foldl_cons, List.foldl_nil, onData_append, List.flatten_append,
      List.flatten_singleton]

lemma withoutReturn_render {m : Value} (h : Plain m) : withoutReturn m.render = m.render := by
  unfold withoutReturn
  rw [if_neg]
  intro hlast
  exact absurd (printable_render h '\r' (List.mem_of_getLast? hlast)) (by decide)

/-- However the bytes are cut, the callbacks get what was sent. -/
lemma handed_exactly (h : ∀ m ∈ messages, Plain m) {chunks : List Chunk} (hsent : chunks.flatten = sent messages) :
    (chunks.foldl onData init).handed = messages.map exactly := by
  have hraw : (messages.map Value.render).map withoutReturn = messages.map Value.render := by
    rw [List.map_map]
    exact List.map_congr_left fun m hm => withoutReturn_render (h m hm)
  have hfull : (messages.map Value.render).filter (· ≠ []) = messages.map Value.render := by
    rw [List.filter_eq_self]
    simp only [List.forall_mem_map, decide_eq_true_eq]
    exact fun m hm => render_ne_nil (h m hm)
  rw [foldl_onData]
  simp only [onData, init, List.nil_append, decode_sent h hsent, hraw, hfull]
  exact map_decoded h

end PlatformSpawn

namespace CallDaemon

variable {id : Number} {messages : List Value} {lines more : List (List Char)}

def isAnswer (id : Number) (m : Value) : Bool :=
  match property m "id" with
  | .ok (.number n) => n = id
  | _ => false

/-- The messages up to the answer to the call. -/
def upToAnswer (id : Number) : List Value → List Value
  | [] => []
  | m :: rest => if isAnswer id m then [m] else m :: upToAnswer id rest

lemma readLines_append (lines more : List (List Char)) :
    readLines id (lines ++ more) =
      match (readLines id lines).2 with
      | .waiting => ((readLines id lines).1 ++ (readLines id more).1, (readLines id more).2)
      | outcome => ((readLines id lines).1, outcome) := by
  induction lines with
  | nil => rfl
  | cons line rest ih =>
    rw [List.cons_append, readLines, readLines]
    split_ifs
    · exact ih
    · cases parse (trim line) with
      | none =>
        rw [ih]
        cases (readLines id rest).2 <;> rfl
      | some resp =>
        dsimp only
        split
        · rfl
        · split_ifs
          · rfl
          · rw [ih]
            cases (readLines id rest).2 <;> rfl
        · rw [ih]
          cases (readLines id rest).2 <;> rfl

/-- What a call has read is what it reads from the lines of all that was decoded. -/
lemma foldl_onData (id : Number) (chunks : List Chunk) :
    ((chunks.foldl (onData id) init).handed, (chunks.foldl (onData id) init).outcome) =
        readLines id (cutLines (decodeChunks chunks)).1 ∧
      ((chunks.foldl (onData id) init).outcome = .waiting →
        (chunks.foldl (onData id) init).buf = (cutLines (decodeChunks chunks)).2) := by
  induction chunks using List.reverseRecOn with
  | nil => exact ⟨rfl, fun _ => rfl⟩
  | append_singleton chunks chunk ih =>
    have hdecode : decodeChunks (chunks ++ [chunk]) = decodeChunks chunks ++ decodeFrom none chunk := by
      simp only [decodeChunks, List.flatMap_append, List.flatMap_singleton]
    rw [List.foldl_append, List.foldl_cons, List.foldl_nil, hdecode, cutLines_append, readLines_append]
    obtain ⟨hread, hbuf⟩ := ih
    rw [← hread]
    generalize chunks.foldl (onData id) init = c at hread hbuf
    cases hc : c.outcome with
    | waiting =>
      simp only [onData, hc, hbuf hc, implies_true, and_self]
    | resolved resp =>
      simp only [onData, hc, reduceCtorEq, false_implies, and_self]
    | threw =>
      simp only [onData, hc, reduceCtorEq, false_implies, and_self]

lemma worn_edges {m : Value} (h : Plain m) {line : List Char} (hworn : Worn m.render line) : trim line = line ∧ line ≠ [] := by
  obtain ⟨c, d, hhead, hlast, hc, hd⟩ := render_edges h
  have hfirst := hworn.head hhead (by have := hc.2; omega)
  have hend := hworn.last hlast (by have := hd.2; omega)
  refine ⟨trim_eq ?_ ?_, by rintro rfl; cases hfirst⟩
  · rw [hfirst]
    rintro x ⟨rfl⟩
    exact hc.notBlank
  · rw [hend]
    rintro x ⟨rfl⟩
    exact hd.notBlank

lemma property_plain {m : Value} (h : Plain m) (hnull : m ≠ .null) (name : String) :
    ∃ v, property m name = .ok v := by
  cases h with
  | null => exact absurd rfl hnull
  | _ => exact ⟨_, rfl⟩

lemma readLines_head (id : Number) {line : List Char} (htrim : trim line = line) (hne : line ≠ []) (rest : List (List Char)) :
    (readLines id (line :: rest)).1.head? = some (decoded line) := by
  rw [readLines]
  simp only [htrim, if_neg hne, decoded]
  cases parse line with
  | none => rfl
  | some resp =>
    dsimp only
    split
    · rfl
    · split_ifs <;> rfl
    · rfl

lemma readLines_answer {m : Value} (h : Plain m) (hanswer : isAnswer id m = true) (rest : List (List Char)) :
    readLines id (m.render :: rest) = ([exactly m], .resolved m) := by
  unfold isAnswer at hanswer
  split at hanswer
  · next n hn =>
    rw [readLines]
    simp only [trim_render h, if_neg (render_ne_nil h), parse_render h, hn, of_decide_eq_true hanswer, if_true, exactly]
  · cases hanswer

lemma readLines_null (rest : List (List Char)) :
    readLines id (Value.render .null :: rest) = ([exactly .null], .threw) := by
  rw [readLines]
  simp only [trim_render Plain.null, if_neg (render_ne_nil Plain.null), parse_render Plain.null]
  rfl

lemma readLines_other {m : Value} (h : Plain m) (hnull : m ≠ .null) (hanswer : isAnswer id m = false)
    (rest : List (List Char)) : (readLines id (m.render :: rest)).1 = exactly m :: (readLines id rest).1 := by
  obtain ⟨v, hv⟩ := property_plain h hnull "id"
  rw [readLines]
  simp only [trim_render h, if_neg (render_ne_nil h), parse_render h, hv]
  unfold isAnswer at hanswer
  rw [hv] at hanswer
  split
  · next hn => cases hn
  · next n hn =>
    cases hn
    rw [if_neg (of_decide_eq_false hanswer)]
    rfl
  · rfl

lemma mem_of_mem_upToAnswer {m : Value} (h : m ∈ upToAnswer id messages) : m ∈ messages := by
  induction messages with
  | nil => exact h
  | cons n rest ih =>
    rw [upToAnswer] at h
    split_ifs at h
    · obtain rfl := List.mem_singleton.mp h
      exact List.mem_cons_self
    · obtain rfl | h := List.mem_cons.mp h
      · exact List.mem_cons_self
      · exact List.mem_cons_of_mem n (ih h)

/-- The call reads what was sent just where its lines are those sent, and no `null` stands before the last of them. -/
lemma readLines_exactly_iff (h : ∀ m ∈ messages, Plain m)
    (hworn : List.Forall₂ Worn ((upToAnswer id messages).map Value.render) lines)
    (hmore : more = [] ∨ ∃ m ∈ messages, isAnswer id m = true) :
    (readLines id (lines ++ more)).1 = (upToAnswer id messages).map exactly ↔
      lines = (upToAnswer id messages).map Value.render ∧ .null ∉ (upToAnswer id messages).dropLast := by
  induction messages generalizing lines with
  | nil =>
    cases hworn
    obtain rfl | ⟨m, hm, _⟩ := hmore
    · exact iff_of_true rfl ⟨rfl, List.not_mem_nil⟩
    · cases hm
  | cons m rest ih =>
    obtain ⟨hm, hrest⟩ := List.forall_mem_cons.mp h
    have hdiffers : ∀ {line : List Char} {lines more : List (List Char)} {handed : List Decoded}, Worn m.render line →
        line ≠ m.render → (readLines id (line :: (lines ++ more))).1 ≠ exactly m :: handed := by
      intro line lines more handed hline hne heq
      obtain ⟨htrim, hnil⟩ := worn_edges hm hline
      have hhead := readLines_head id htrim hnil (lines ++ more)
      rw [heq] at hhead
      exact hne (congrArg Prod.fst (Option.some.inj hhead)).symm
    cases hanswer : isAnswer id m with
    | true =>
      rw [upToAnswer, if_pos hanswer] at hworn ⊢
      obtain ⟨line, _, hline, hnil, rfl⟩ := List.forall₂_cons_left_iff.mp hworn
      cases hnil
      by_cases heq : line = m.render
      · rw [heq, List.cons_append, readLines_answer hm hanswer]
        exact iff_of_true rfl ⟨rfl, List.not_mem_nil⟩
      · refine iff_of_false (hdiffers hline heq) fun hall => heq ?_
        exact (List.cons.inj hall.1).1
    | false =>
      have hmore' : more = [] ∨ ∃ m ∈ rest, isAnswer id m = true := by
        refine hmore.imp_right ?_
        rintro ⟨n, hn, hanswers⟩
        obtain rfl | hn := List.mem_cons.mp hn
        · rw [hanswer] at hanswers
          cases hanswers
        · exact ⟨n, hn, hanswers⟩
      rw [upToAnswer, hanswer, if_neg Bool.false_ne_true] at hworn ⊢
      obtain ⟨line, lines, hline, hlines, rfl⟩ := List.forall₂_cons_left_iff.mp hworn
      by_cases heq : line = m.render
      · subst heq
        by_cases hnull : m = .null
        · subst hnull
          rw [List.cons_append, readLines_null, List.map_cons, List.cons.injEq, List.map_cons, List.cons.injEq]
          cases hup : upToAnswer id rest with
          | nil =>
            rw [hup] at hlines
            cases hlines
            exact iff_of_true ⟨rfl, rfl⟩ ⟨⟨rfl, rfl⟩, List.not_mem_nil⟩
          | cons n ns => exact iff_of_false (by simp) (by simp)
        · have hlast : .null ∉ (m :: upToAnswer id rest).dropLast ↔ .null ∉ (upToAnswer id rest).dropLast := by
            cases upToAnswer id rest with
            | nil => exact iff_of_true List.not_mem_nil List.not_mem_nil
            | cons n ns =>
              rw [List.dropLast_cons_cons, List.mem_cons, not_or]
              exact and_iff_right (Ne.symm hnull)
          rw [List.cons_append, readLines_other hm hnull hanswer, List.map_cons, List.map_cons, List.cons.injEq,
            List.cons.injEq, ih hrest hlines hmore', hlast]
          simp only [true_and]
      · refine iff_of_false (hdiffers hline heq) fun hall => heq ?_
        exact (List.cons.inj hall.1).1

lemma upToAnswer_append (id : Number) (messages : List Value) :
    ∃ rest, messages = upToAnswer id messages ++ rest ∧ (rest = [] ∨ ∃ m ∈ messages, isAnswer id m = true) := by
  induction messages with
  | nil => exact ⟨[], rfl, Or.inl rfl⟩
  | cons m messages ih =>
    obtain ⟨rest, hrest, hend⟩ := ih
    rw [upToAnswer]
    split_ifs with hanswer
    · exact ⟨messages, rfl, Or.inr ⟨m, List.mem_cons_self, hanswer⟩⟩
    · refine ⟨rest, congrArg (m :: ·) hrest, hend.imp_right ?_⟩
      rintro ⟨n, hn, hanswers⟩
      exact ⟨n, List.mem_cons_of_mem m hn, hanswers⟩

lemma sent_append (messages more : List Value) : sent (messages ++ more) = sent messages ++ sent more := by
  simp only [sent, frame, List.map_append, List.flatMap_append, encode_append]

lemma sent_getLast (messages : List Value) : ∀ x ∈ (sent messages).getLast?, x.toNat < 0x80 := by
  induction messages using List.reverseRecOn with
  | nil => simp [sent, frame, encode]
  | append_singleton messages m =>
    have hline : sent [m] = encode m.render ++ [10] := by
      rw [sent, List.map_singleton, frame_cons, encode_append]
      rfl
    rw [sent_append, hline, ← List.append_assoc, List.getLast?_concat]
    rintro x ⟨rfl⟩
    decide

/-- A call reads the messages up to its answer just where these hold no `null` before the last and are cut between
characters. -/
lemma handed_exactly_iff (h : ∀ m ∈ messages, Plain m) {chunks : List Chunk} (hsent : chunks.flatten = sent messages) :
    (chunks.foldl (onData id) init).handed = (upToAnswer id messages).map exactly ↔
      .null ∉ (upToAnswer id messages).dropLast ∧
        ∀ chunk ∈ within (sent (upToAnswer id messages)).length chunks, Aligned chunk := by
  obtain ⟨rest, hmessages, hend⟩ := upToAnswer_append id messages
  have hup : ∀ m ∈ upToAnswer id messages, Plain m := fun m hm => h m (mem_of_mem_upToAnswer hm)
  have hsplit : chunks.flatten = sent (upToAnswer id messages) ++ sent rest := by
    rw [← sent_append, ← hmessages, hsent]
  have htake : chunks.flatten.take (sent (upToAnswer id messages)).length = sent (upToAnswer id messages) := by
    rw [hsplit, List.take_left]
  have hwithin := flatten_within (sent (upToAnswer id messages)).length chunks
  rw [htake] at hwithin
  obtain ⟨ds, hds, hworn⟩ := worn_decodeChunks (b := []) hwithin (by simp)
  obtain ⟨lines, rfl, hlines, hno⟩ := hworn.lines (message_lines hup)
  have hdecode := decodeChunks_within (n := (sent (upToAnswer id messages)).length) (htake ▸ sent_getLast _)
  have hmore : (cutLines (decodeChunks (beyond (sent (upToAnswer id messages)).length chunks))).1 = [] ∨
      ∃ m ∈ messages, isAnswer id m = true := by
    refine hend.imp_left fun hrest => ?_
    have hall : chunks.flatten.length ≤ (sent (upToAnswer id messages)).length := by
      rw [hsplit, hrest]
      exact Nat.le_of_eq (congrArg List.length (List.append_nil _))
    rw [(within_all hall).2]
    rfl
  have hread := congrArg Prod.fst (foldl_onData id chunks).1
  rw [hdecode, hds, cutLines_append] at hread
  simp only [List.length_nil, List.replicate_zero, List.nil_append, cutLines_frame hno] at hread
  rw [hread, readLines_exactly_iff h hlines hmore, and_comm, ← decodeChunks_iff hwithin, hds]
  refine and_congr_right fun _ => ⟨fun heq => by rw [heq]; rfl, fun heq => ?_⟩
  exact frame_injective hno (message_lines hup) heq

end CallDaemon

namespace StartDaemon

variable {messages : List Value} {bytes chunk : Chunk} {s t : Connection}

/-- A loop that awaits `handle`, with the messages on the lines behind its request. -/
def behind (w : Value × List Value) : Value × List (List Char) := (w.1, w.2.map Value.render)

lemma readLines_nil : readLines [] = ([], none) := rfl

lemma readLines_message {m : Value} (hm : Plain m) (rest : List (List Char)) :
    readLines (m.render :: rest) = ([exactly m], some (m, rest)) := by
  rw [readLines]
  simp only [trim_render hm, if_neg (render_ne_nil hm), parse_render hm]
  rfl

/-- What a connection has read, and what its loops have still to read, are the messages whose lines have ended. Only one
loop has lines behind it. -/
def Serves (messages : List Value) (bytes : Chunk) (s : Connection) : Prop :=
  ∃ (text : List Char) (waiting : List (Value × List Value)), bytes = encode text ∧
    s.buf = (cutLines text).2 ∧ s.crashed = false ∧ s.loops = waiting.map behind ∧
    s.handed ++ (waiting.flatMap Prod.snd).map exactly = (messages.take (cutLines text).1.length).map exactly ∧
    waiting.Pairwise (fun a b => a.2 = [] ∨ b.2 = []) ∧ ∀ w ∈ waiting, w.1 ∈ messages ∧ ∀ m ∈ w.2, m ∈ messages

lemma text_initial {text : List Char} (h : encode text <+: sent messages) : text <+: frame (messages.map Value.render) := by
  obtain ⟨rest, hrest⟩ := h
  have hfeed := congrArg (fun bytes => (feed none bytes).1) hrest
  simp only [sent, encode, feed_append, feed_encoded] at hfeed
  exact ⟨_, hfeed⟩

lemma ended_lines (h : ∀ m ∈ messages, Plain m) {text : List Char} (htext : text <+: frame (messages.map Value.render)) :
    (cutLines text).1 = (messages.take (cutLines text).1.length).map Value.render := by
  rw [List.map_take]
  exact List.prefix_iff_eq_take.mp (cutLines_initial (message_lines h) htext)

lemma Serves.data (h : ∀ m ∈ messages, Plain m) (hs : Serves messages bytes s)
    (hcut : bytes ++ chunk <+: sent messages) (horder : Orderly s (.data chunk))
    (hstep : step s (.data chunk) = some t) : Serves messages (bytes ++ chunk) t := by
  obtain ⟨text, waiting, rfl, hbuf, hcrashed, hloops, hread, hone, hmem⟩ := hs
  obtain ⟨⟨cs, rfl⟩, hquiet⟩ := horder
  rw [← encode_append] at hcut ⊢
  have hdecode : decodeFrom none (encode cs) = cs := by
    rw [encode, decodeFrom_encoded]
  have hold := ended_lines h ((List.prefix_append text cs).trans (text_initial hcut))
  have hall := ended_lines h (text_initial hcut)
  have happend := cutLines_append text cs
  rw [← hbuf] at happend
  simp only [step, hcrashed, Bool.false_eq_true, if_false, hdecode, Option.some.injEq] at hstep
  subst hstep
  -- the messages on the lines that end with this chunk
  obtain ⟨news, hnews, htake⟩ : ∃ news, (cutLines (s.buf ++ cs)).1 = news.map Value.render ∧
      messages.take (cutLines (text ++ cs)).1.length = messages.take (cutLines text).1.length ++ news := by
    refine ⟨(messages.take (cutLines (text ++ cs)).1.length).drop (cutLines text).1.length, ?_, ?_⟩
    · rw [List.map_drop, ← hall, happend, List.drop_left]
    · have hle : (cutLines text).1.length ≤ (cutLines (text ++ cs)).1.length := by
        rw [happend, List.length_append]
        exact Nat.le_add_right _ _
      have hfront := List.take_append_drop (cutLines text).1.length (messages.take (cutLines (text ++ cs)).1.length)
      rw [List.take_take, Nat.min_eq_left hle] at hfront
      exact hfront.symm
  have hnewsMem : ∀ m ∈ news, m ∈ messages := fun m hm =>
    List.mem_of_mem_take (htake ▸ List.mem_append_right _ hm)
  cases news with
  | nil =>
    rw [List.append_nil] at htake
    refine ⟨text ++ cs, waiting, rfl, by rw [happend], rfl, ?_, ?_, hone, hmem⟩
    · simp only [hnews, List.map_nil, readLines_nil, Option.toList_none, List.append_nil, hloops]
    · simp only [hnews, List.map_nil, readLines_nil, List.append_nil, htake, hread]
  | cons m news =>
    obtain ⟨hm, hrest⟩ := List.forall_mem_cons.mp hnewsMem
    have hline := readLines_message (h m hm) (news.map Value.render)
    have hempty : ∀ w ∈ waiting, w.2 = [] := by
      obtain hempty | hno := hquiet
      · intro w hw
        have hw' := hempty (behind w) (by rw [hloops]; exact List.mem_map_of_mem hw)
        exact List.map_eq_nil_iff.mp hw'
      · have hopen : '\n' ∉ s.buf ++ cs := by
          rw [hdecode] at hno
          rw [List.mem_append, not_or, hbuf]
          exact ⟨cutLines_snd text, hno⟩
        rw [cutLines_open hopen] at hnews
        cases hnews
    have hnone : waiting.flatMap Prod.snd = [] := List.flatMap_eq_nil_iff.mpr hempty
    refine ⟨text ++ cs, waiting ++ [(m, news)], rfl, by rw [happend], rfl, ?_, ?_, ?_, ?_⟩
    · simp only [hnews, List.map_cons, hline, Option.toList_some, hloops, List.map_append, List.map_nil]
      rfl
    · rw [hnone, List.map_nil, List.append_nil] at hread
      simp only [hnews, List.map_cons, hline, htake, hread, List.flatMap_append, hnone, List.nil_append,
        List.flatMap_singleton, List.map_append, List.append_assoc, List.singleton_append]
    · refine List.pairwise_append.mpr ⟨hone, List.pairwise_singleton _ _, ?_⟩
      exact fun w hw _ _ => Or.inl (hempty w hw)
    · refine List.forall_mem_append.mpr ⟨hmem, ?_⟩
      rw [List.forall_mem_singleton]
      exact ⟨hm, hrest⟩

lemma step_handled {i : ℕ} {req : Value} {rest : List (List Char)} (hcrashed : s.crashed = false)
    (hloop : s.loops[i]? = some (req, rest)) (hreq : req ≠ .null) :
    step s (.handled i) = some { s with
      loops := match (readLines rest).2 with
        | none => s.loops.eraseIdx i
        | some loop => s.loops.set i loop
      handed := s.handed ++ (readLines rest).1 } := by
  unfold step
  rw [hcrashed, if_neg Bool.false_ne_true]
  dsimp only
  rw [hloop]
  cases req with
  | null => exact absurd rfl hreq
  | _ => rfl

lemma Serves.handled (h : ∀ m ∈ messages, Plain m) (hnull : .null ∉ messages) (hs : Serves messages bytes s) {i : ℕ}
    (hstep : step s (.handled i) = some t) : Serves messages bytes t := by
  obtain ⟨text, waiting, hbytes, hbuf, hcrashed, hloops, hread, hone, hmem⟩ := hs
  cases hloop : waiting[i]? with
  | none =>
    have hnone : s.loops[i]? = none := by
      rw [hloops, List.getElem?_map, hloop]
      rfl
    simp only [step, hcrashed, Bool.false_eq_true, if_false, hnone] at hstep
    cases hstep
  | some w =>
    obtain ⟨req, rest⟩ := w
    have hsome : s.loops[i]? = some (req, rest.map Value.render) := by
      rw [hloops, List.getElem?_map, hloop]
      rfl
    obtain ⟨hi, hget⟩ := List.getElem?_eq_some_iff.mp hloop
    obtain ⟨front, back, hsplit, hfront⟩ : ∃ front back, waiting = front ++ (req, rest) :: back ∧ front.length = i :=
      ⟨waiting.take i, waiting.drop (i + 1), by rw [← hget, List.getElem_cons_drop, List.take_append_drop],
        List.length_take_of_le hi.le⟩
    obtain ⟨hreq, hrest⟩ := hmem (req, rest) (List.mem_of_getElem? hloop)
    have hreq' : req ≠ .null := by
      rintro rfl
      exact hnull hreq
    rw [step_handled hcrashed hsome hreq'] at hstep
    have hnext := (Option.some.inj hstep).symm
    subst hnext
    subst hsplit
    rw [List.pairwise_append, List.pairwise_cons] at hone
    obtain ⟨honeFront, ⟨hbehind, honeBack⟩, hacross⟩ := hone
    rw [List.forall_mem_append, List.forall_mem_cons] at hmem
    obtain ⟨hmemFront, _, hmemBack⟩ := hmem
    cases rest with
    | nil =>
      refine ⟨text, front ++ back, hbytes, hbuf, hcrashed, ?_, ?_, ?_, List.forall_mem_append.mpr ⟨hmemFront, hmemBack⟩⟩
      · simp only [List.map_nil, readLines_nil, hloops, List.map_append, List.map_cons]
        rw [List.eraseIdx_append_of_length_le (by rw [List.length_map]; omega), List.length_map, hfront, Nat.sub_self,
          List.eraseIdx_cons_zero]
      · simpa only [List.map_nil, readLines_nil, List.append_nil, List.flatMap_append, List.flatMap_cons,
          List.nil_append] using hread
      · exact List.pairwise_append.mpr ⟨honeFront, honeBack, fun a ha b hb => hacross a ha b (List.mem_cons_of_mem _ hb)⟩
    | cons m rest =>
      obtain ⟨hm, hrest⟩ := List.forall_mem_cons.mp hrest
      have hline := readLines_message (h m hm) (rest.map Value.render)
      have hemptyFront : ∀ w ∈ front, w.2 = [] := fun w hw =>
        (hacross w hw _ List.mem_cons_self).resolve_right (List.cons_ne_nil _ _)
      have hemptyBack : ∀ w ∈ back, w.2 = [] := fun w hw => (hbehind w hw).resolve_left (List.cons_ne_nil _ _)
      refine ⟨text, front ++ (m, rest) :: back, hbytes, hbuf, hcrashed, ?_, ?_, ?_, ?_⟩
      · simp only [List.map_cons, hline, hloops, List.map_append]
        rw [List.set_append_right _ _ (by rw [List.length_map]; omega), List.length_map, hfront, Nat.sub_self,
          List.set_cons_zero]
        rfl
      · have hnone : front.flatMap Prod.snd = [] := List.flatMap_eq_nil_iff.mpr hemptyFront
        simp only [List.map_cons, hline, List.flatMap_append, List.flatMap_cons, hnone, List.nil_append, List.append_assoc,
          List.map_append, List.cons_append] at hread ⊢
        exact hread
      · rw [List.pairwise_append, List.pairwise_cons]
        exact ⟨honeFront, ⟨fun w hw => Or.inr (hemptyBack w hw), honeBack⟩, fun w hw _ _ => Or.inl (hemptyFront w hw)⟩
      · exact List.forall_mem_append.mpr ⟨hmemFront, List.forall_mem_cons.mpr ⟨⟨hm, hrest⟩, hmemBack⟩⟩

/-- What a run of orderly steps has read is a first part of what was sent, and all of it once no line waits. -/
lemma run_reads (h : ∀ m ∈ messages, Plain m) (hnull : .null ∉ messages)
    {steps : List (Connection × Event × Connection)} (hrun : connections.Run steps s)
    (horder : ∀ x ∈ steps, Orderly x.1 x.2.1) (hcut : arrived steps <+: sent messages) :
    Serves messages (arrived steps) s := by
  induction hrun with
  | start hinit =>
    obtain rfl := hinit
    exact ⟨[], [], rfl, rfl, rfl, rfl, rfl, List.Pairwise.nil, by simp⟩
  | @next steps s e t hrun hstep ih =>
    obtain ⟨hsteps, hlast⟩ := List.forall_mem_append.mp horder
    rw [List.forall_mem_singleton] at hlast
    have harrived : arrived (steps ++ [(s, e, t)]) = arrived steps ++ arrived [(s, e, t)] := List.flatMap_append
    rw [harrived] at hcut ⊢
    have hserves := ih hsteps ((List.prefix_append _ _).trans hcut)
    cases e with
    | data chunk =>
      have hone : arrived [(s, .data chunk, t)] = chunk := List.append_nil chunk
      rw [hone] at hcut ⊢
      exact hserves.data h hcut hlast hstep
    | handled i =>
      have hone : arrived [(s, .handled i, t)] = [] := rfl
      rw [hone, List.append_nil]
      exact hserves.handled h hnull hstep

lemma Serves.first_read (hs : Serves messages bytes s) : s.handed <+: messages.map exactly := by
  obtain ⟨text, waiting, _, _, _, _, hread, _, _⟩ := hs
  have hfront : s.handed <+: (messages.take (cutLines text).1.length).map exactly := ⟨_, hread⟩
  rw [List.map_take] at hfront
  exact hfront.trans (List.take_prefix _ _)

lemma Serves.all (h : ∀ m ∈ messages, Plain m) (hs : Serves messages bytes s) (hbytes : bytes = sent messages)
    (hidle : ∀ loop ∈ s.loops, loop.2 = []) : s.handed = messages.map exactly := by
  obtain ⟨text, waiting, htext, _, _, hloops, hread, _, _⟩ := hs
  have hempty : waiting.flatMap Prod.snd = [] := by
    rw [List.flatMap_eq_nil_iff]
    intro w hw
    have hnone := hidle (behind w) (by rw [hloops]; exact List.mem_map_of_mem hw)
    exact List.map_eq_nil_iff.mp hnone
  obtain rfl : text = frame (messages.map Value.render) := encode_injective (htext.symm.trans hbytes)
  rw [cutLines_frame (message_lines h), hempty, List.map_nil, List.append_nil, List.length_map, List.take_length] at hread
  exact hread

end StartDaemon

section Readers

/-- Spawned processes are read exactly, however their output is cut; a daemon call is just where the messages up to its
answer are cut between characters; and the server is on each connection whose chunks are cut between characters and end
no line while others wait. -/
theorem readers_exact_iff (messages : List Value) (h : ∀ m ∈ messages, Plain m) :
    (∀ chunks : List Chunk, chunks.flatten = sent messages →
      (chunks.foldl PlatformSpawn.onData PlatformSpawn.init).handed = messages.map exactly) ∧
    (∀ (id : Number) (chunks : List Chunk), chunks.flatten = sent messages →
      ((chunks.foldl (CallDaemon.onData id) CallDaemon.init).handed = (CallDaemon.upToAnswer id messages).map exactly ↔
        .null ∉ (CallDaemon.upToAnswer id messages).dropLast ∧
          ∀ chunk ∈ within (sent (CallDaemon.upToAnswer id messages)).length chunks, Aligned chunk)) ∧
    ∀ steps s, StartDaemon.connections.Run steps s → .null ∉ messages →
      (∀ x ∈ steps, StartDaemon.Orderly x.1 x.2.1) → StartDaemon.arrived steps <+: sent messages →
      s.handed <+: messages.map exactly ∧
        (StartDaemon.arrived steps = sent messages → (∀ loop ∈ s.loops, loop.2 = []) →
          s.handed = messages.map exactly) := by
  refine ⟨fun chunks hsent => PlatformSpawn.handed_exactly h hsent, fun id chunks hsent => ?_, ?_⟩
  · exact CallDaemon.handed_exactly_iff h hsent
  · intro steps s hrun hnull horder hcut
    have hserves := StartDaemon.run_reads h hnull hrun horder hcut
    exact ⟨hserves.first_read, fun hall hidle => hserves.all h hall hidle⟩

/-- A message of one character that takes two bytes. -/
def accented : Value := .string [0xE9]

lemma accented_plain : ∀ m ∈ [accented], Plain m := by
  rw [List.forall_mem_singleton]
  exact Plain.string _

lemma arrived_eq (steps : List (StartDaemon.Connection × StartDaemon.Event × StartDaemon.Connection))
    {chunks : List Chunk} (h : steps.map (fun x => x.2.1) = chunks.map .data) :
    StartDaemon.arrived steps = chunks.flatten := by
  induction chunks generalizing steps with
  | nil =>
    rw [List.map_eq_nil_iff.mp h]
    rfl
  | cons chunk chunks ih =>
    obtain ⟨x, rest, rfl, hx, hrest⟩ := List.map_eq_cons_iff.mp h
    rw [List.flatten_cons, ← ih rest hrest, StartDaemon.arrived, List.flatMap_cons, hx]
    rfl

theorem readers_exact_accented :
    (([[0x22, 0xC3], [0xA9, 0x22, 0x0A]] : List Chunk).foldl PlatformSpawn.onData PlatformSpawn.init).handed =
        [exactly accented] ∧
      (([[0x22, 0xC3, 0xA9], [0x22, 0x0A]] : List Chunk).foldl (CallDaemon.onData .zero) CallDaemon.init).handed =
        [exactly accented] ∧
      ∃ steps s, StartDaemon.connections.Run steps s ∧
        steps.map (fun x => x.2.1) = [.data [0x22, 0xC3, 0xA9], .data [0x22, 0x0A]] ∧ s.handed = [exactly accented] := by
  obtain ⟨hspawn, hcall, hserver⟩ := readers_exact_iff [accented] accented_plain
  refine ⟨hspawn _ (by decide), ?_, ?_⟩
  · exact (hcall .zero _ (by decide)).mpr ⟨List.not_mem_nil, by decide⟩
  · have hexec : (StartDaemon.connections.exec StartDaemon.Orderly StartDaemon.init
        ([[0x22, 0xC3, 0xA9], [0x22, 0x0A]].map .data)).map (fun s => s.loops.all fun loop => loop.2 = []) =
          some true := by
      decide
    obtain ⟨s, hs, hidle⟩ := Option.map_eq_some_iff.mp hexec
    obtain ⟨steps, hrun, hevents, horder⟩ := System.exec_run rfl hs
    have harrived : StartDaemon.arrived steps = sent [accented] := by
      rw [arrived_eq steps hevents]
      decide
    simp only [List.all_eq_true, decide_eq_true_eq] at hidle
    refine ⟨steps, s, hrun, hevents, ?_⟩
    exact (hserver steps s hrun (by simp [accented]) horder (harrived ▸ List.prefix_rfl)).2 harrived hidle

/-- Cut inside its one character, the message is read as another one by the client and by the server. -/
theorem accented_altered :
    ∃ (messages : List Value) (chunks : List Chunk), (∀ m ∈ messages, Plain m) ∧ (∀ chunk ∈ chunks, chunk ≠ []) ∧
      chunks.flatten = sent messages ∧
      (chunks.foldl (CallDaemon.onData .zero) CallDaemon.init).handed ≠ messages.map exactly ∧
      ∃ steps s, StartDaemon.connections.Run steps s ∧ steps.map (fun x => x.2.1) = chunks.map .data ∧
        (∀ loop ∈ s.loops, loop.2 = []) ∧ s.handed ≠ messages.map exactly := by
  refine ⟨[accented], [[0x22, 0xC3], [0xA9, 0x22, 0x0A]], accented_plain, by simp, by decide, ?_, ?_⟩
  · intro heq
    have hlength := congrArg (fun handed : List Decoded => handed.map fun d => d.1.length) heq
    exact absurd hlength (by decide)
  · have hexec : (StartDaemon.connections.exec System.free StartDaemon.init
        ([[0x22, 0xC3], [0xA9, 0x22, 0x0A]].map .data)).map (fun s =>
          s.loops.all (fun loop => loop.2 = []) && decide (s.handed.map (fun d => d.1.length) = [4])) = some true := by
      decide
    obtain ⟨s, hs, hbad⟩ := Option.map_eq_some_iff.mp hexec
    obtain ⟨steps, hrun, hevents, _⟩ := System.exec_run rfl hs
    simp only [Bool.and_eq_true, List.all_eq_true, decide_eq_true_eq] at hbad
    refine ⟨steps, s, hrun, hevents, hbad.1, fun heq => ?_⟩
    have hlength := hbad.2
    rw [heq] at hlength
    exact absurd hlength (by decide)

end Readers

end VivimOmega.Daemon

import VivimOmega.Library.Json.Stringify
import VivimOmega.Library.Transition

/-! The ordered stream of a root call: what the shim emits, what the generator answers its pulls with. -/

namespace VivimOmega.Sdk

open Library Library.Json

section Sequence

structure StreamChunk where
  streamId : String
  seq : Number
  data : Value
  final : Bool

def STREAM_SEQ_START : ℤ := 1

def checkStreamSeq (prevSeq : ℤ) (chunk : StreamChunk) : Option String :=
  let shown := "seq " ++ jsString (.number chunk.seq)
  match chunk.seq.toInt? with
  | none => some (shown ++ " is not an integer")
  | some seq =>
    if seq < STREAM_SEQ_START then some (shown ++ " precedes the stream start " ++ toString STREAM_SEQ_START)
    else if seq ≠ prevSeq + 1 then
      some (shown ++ " breaks contiguous order (expected " ++ toString (prevSeq + 1) ++ ")")
    else none

lemma checkStreamSeq_eq_none {n : ℕ} {c : StreamChunk} :
    checkStreamSeq n c = none ↔ c.seq.toInt? = some ((n : ℤ) + 1) := by
  unfold checkStreamSeq
  cases c.seq.toInt? with
  | none => simp
  | some seq =>
    have hstart : STREAM_SEQ_START = 1 := rfl
    dsimp only
    rw [Option.some.injEq]
    split_ifs with hearly hnext
    · refine ⟨nofun, fun h => ?_⟩
      omega
    · exact ⟨nofun, fun h => absurd h hnext⟩
    · exact ⟨fun _ => not_not.mp hnext, fun _ => rfl⟩

end Sequence

section Expected

/-- What a pull of the generator is answered with. -/
inductive Answer
  | yielded (c : StreamChunk)
  | threw (error : String)
  | done

/-- The chunks with the numbers n + 1, n + 2, … up to the first final one, and the error at the first chunk out of
sequence. The flag tells that the stream has come to an end with one of them. -/
def expected (n : ℕ) : List StreamChunk → List Answer × Bool
  | [] => ([], false)
  | c :: rest =>
    if c.seq.toInt? = some ((n : ℤ) + 1) then
      if c.final then ([.yielded c], true)
      else (.yielded c :: (expected (n + 1) rest).1, (expected (n + 1) rest).2)
    else ([.threw ("stream " ++ c.streamId ++ ": " ++ (checkStreamSeq n c).getD "")], true)

lemma expected_append (n : ℕ) (xs ys : List StreamChunk) : expected n (xs ++ ys) =
    if (expected n xs).2 then expected n xs
    else ((expected n xs).1 ++ (expected (n + xs.length) ys).1, (expected (n + xs.length) ys).2) := by
  induction xs generalizing n with
  | nil => rfl
  | cons c xs ih =>
    rw [List.cons_append, expected, expected]
    by_cases hseq : c.seq.toInt? = some ((n : ℤ) + 1)
    · rw [if_pos hseq, if_pos hseq]
      cases hfinal : c.final with
      | true => rfl
      | false =>
        rw [if_neg Bool.false_ne_true, if_neg Bool.false_ne_true, ih, List.length_cons]
        have hlength : n + (xs.length + 1) = n + 1 + xs.length := by omega
        rw [hlength]
        cases hended : (expected (n + 1) xs).2 <;> simp [hended]
    · rw [if_neg hseq, if_neg hseq]
      rfl

lemma expected_open {n : ℕ} {xs : List StreamChunk} (h : (expected n xs).2 = false) :
    (expected n xs).1 = xs.map .yielded := by
  induction xs generalizing n with
  | nil => rfl
  | cons c xs ih =>
    rw [expected] at h ⊢
    split_ifs at h ⊢ with hseq hfinal
    exact congrArg _ (ih h)

end Expected

section Consumer

/-- Where the generator stands: before its loop or at a yield, at the yield of the final chunk, at the wait with its
wake-up set, past the wait, returned after the final chunk or an error, or returned as the call had settled. -/
inductive Phase
  | ready | closing | waiting | woken | done | drained
  deriving DecidableEq

structure StreamCall where
  queue : List StreamChunk
  settled : Bool
  rejected : Bool
  phase : Phase
  prev : ℤ
  pulls : ℕ
  asked : ℕ
  pushed : List StreamChunk
  answers : List Answer

inductive StreamEvent
  | push (c : StreamChunk) (tap : Option String)
  | settle
  | reject
  | pull
  | resume

namespace StreamCall

variable (s : StreamCall)

def wake : StreamCall := if s.phase = .waiting then { s with phase := .woken } else s

/-- A tap that throws keeps the chunk out. A chunk over the bound is kept, but wakes nobody. -/
def push (maxBuffered : ℤ) (c : StreamChunk) : Option String → StreamCall
  | some _ => s
  | none =>
    let s := { s with queue := s.queue ++ [c], pushed := s.pushed ++ [c] }
    if maxBuffered < s.queue.length then s else s.wake

def answer (a : Answer) (phase : Phase) : StreamCall :=
  { s with phase, answers := s.answers ++ [a], pulls := s.pulls - 1 }

/-- The loop, from its head to the answer of a pull or to the wait. -/
def turn : StreamCall :=
  match s.queue with
  | c :: rest =>
    match checkStreamSeq s.prev c with
    | some violation =>
      { s with queue := rest }.answer (.threw ("stream " ++ c.streamId ++ ": " ++ violation)) .done
    | none =>
      { s with queue := rest, prev := c.seq.toInt?.getD s.prev }.answer (.yielded c)
        (if c.final then .closing else .ready)
  | [] => if s.settled then s.answer .done .drained else { s with phase := .waiting }

/-- The pulls are answered one after the other, until the generator waits. -/
def serve : ℕ → StreamCall → StreamCall
  | 0, s => s
  | n + 1, s =>
    if s.pulls = 0 then s
    else
      match s.phase with
      | .ready => serve n s.turn
      | .closing => serve n (s.answer .done .done)
      | .done => serve n (s.answer .done .done)
      | .drained => serve n (s.answer .done .drained)
      | .waiting => s
      | .woken => s

def step (maxBuffered : ℤ) : StreamEvent → Option StreamCall
  | .push c tap => some (s.push maxBuffered c tap)
  | .settle => if s.settled || s.rejected then none else some { s with settled := true }.wake
  | .reject => if s.settled || s.rejected then none else some { s with rejected := true }
  | .pull => some (serve (s.pulls + 1) { s with pulls := s.pulls + 1, asked := s.asked + 1 })
  | .resume => if s.phase = .woken then some (serve s.pulls { s with phase := .ready }) else none

end StreamCall

def newStream : StreamCall := ⟨[], false, false, .ready, 0, 0, 0, [], []⟩

def streamRootCall (maxBuffered : ℤ) : System StreamCall StreamEvent where
  init s := s = newStream
  step s e := s.step maxBuffered e

/-- The stream has come to its end before the call rejects, no chunk comes after the generator returned because the
call had settled, and a chunk for a waiting pull fits into the buffer. -/
def Orderly (maxBuffered : ℤ) (s : StreamCall) : StreamEvent → Prop
  | .push _ tap => tap = none → s.phase ≠ .drained ∧ (s.phase = .waiting → 1 ≤ maxBuffered)
  | .reject => (expected 0 s.pushed).2 = true
  | _ => True

instance orderlyDecidable (maxBuffered : ℤ) (s : StreamCall) (e : StreamEvent) :
    Decidable (Orderly maxBuffered s e) := by
  cases e <;> unfold Orderly <;> infer_instance

/-- The answers are the expected ones of the chunks pushed, as far as there were pulls; done only follows all of them,
at the end of the stream or of a settled call; and at rest a pull is pending only while the call has not settled and
every chunk pushed has been answered with. -/
structure StreamLaw (s : StreamCall) : Prop where
  counted : s.answers.length + s.pulls = s.asked
  exact : ∃ taken m, s.answers = taken ++ List.replicate m .done ∧ taken <+: (expected 0 s.pushed).1 ∧
    (m ≠ 0 → taken = (expected 0 s.pushed).1 ∧ ((expected 0 s.pushed).2 = true ∨ s.settled = true))
  pending : s.pulls ≠ 0 → s.phase ≠ .woken → s.queue = [] ∧ s.settled = false ∧ s.rejected = false ∧
    s.answers = (expected 0 s.pushed).1 ∧ (expected 0 s.pushed).2 = false

end Consumer

section Invariant

variable {s : StreamCall} {consumed : List StreamChunk}

/-- The chunks consumed have been answered with, and the stream goes on. -/
structure Open (s : StreamCall) (consumed : List StreamChunk) : Prop where
  unended : (expected 0 consumed).2 = false
  answers : s.answers = consumed.map .yielded
  prev : s.prev = consumed.length

/-- All that was expected has been answered, and after it done. -/
def Closed (s : StreamCall) (m : ℕ) : Prop := s.answers = (expected 0 s.pushed).1 ++ List.replicate m .done

def At (s : StreamCall) (consumed : List StreamChunk) : Phase → Prop
  | .ready => Open s consumed
  | .woken => Open s consumed
  | .waiting => Open s consumed ∧ s.queue = [] ∧ s.settled = false
  | .closing => (expected 0 s.pushed).2 = true ∧ Closed s 0
  | .done => (expected 0 s.pushed).2 = true ∧ ∃ m, Closed s m
  | .drained => s.settled = true ∧ ∃ m, Closed s m

structure Sound (s : StreamCall) : Prop where
  counted : s.answers.length + s.pulls = s.asked
  rejects : s.rejected = true → (expected 0 s.pushed).2 = true
  place : ∃ consumed, s.pushed = consumed ++ s.queue ∧ At s consumed s.phase

/-- Every pull has been answered, or the generator is at its wait. -/
def Rested (s : StreamCall) : Prop := s.pulls = 0 ∨ s.phase = .waiting ∨ s.phase = .woken

lemma Open.expected (h : Open s consumed) (queue : List StreamChunk) : expected 0 (consumed ++ queue) =
    (consumed.map .yielded ++ (expected consumed.length queue).1, (expected consumed.length queue).2) := by
  rw [expected_append, h.unended, if_neg Bool.false_ne_true, expected_open h.unended, Nat.zero_add]

lemma Open.congr {t : StreamCall} (h : Open s consumed) (hanswers : t.answers = s.answers) (hprev : t.prev = s.prev) :
    Open t consumed :=
  ⟨h.unended, hanswers.trans h.answers, hprev.trans h.prev⟩

lemma At.congr {t : StreamCall} {phase : Phase} (h : At s consumed phase) (hanswers : t.answers = s.answers)
    (hprev : t.prev = s.prev) (hpushed : t.pushed = s.pushed) (hqueue : t.queue = s.queue)
    (hsettled : t.settled = s.settled) : At t consumed phase := by
  cases phase with
  | ready => exact Open.congr h hanswers hprev
  | woken => exact Open.congr h hanswers hprev
  | waiting => exact ⟨h.1.congr hanswers hprev, hqueue.trans h.2.1, hsettled.trans h.2.2⟩
  | closing | done | drained =>
    simp only [At, Closed, hanswers, hpushed, hsettled] at h ⊢
    exact h

lemma sound_answer {a : Answer} {phase : Phase} (hcounted : s.answers.length + s.pulls = s.asked) (hpulls : s.pulls ≠ 0)
    (hrejects : s.rejected = true → (VivimOmega.Sdk.expected 0 s.pushed).2 = true)
    (hpushed : s.pushed = consumed ++ s.queue) (hat : At (s.answer a phase) consumed phase) :
    Sound (s.answer a phase) := by
  refine ⟨?_, hrejects, consumed, hpushed, hat⟩
  change (s.answers ++ [a]).length + (s.pulls - 1) = s.asked
  rw [List.length_append, List.length_singleton]
  omega

lemma sound_turn (h : Sound s) (hready : s.phase = .ready) (hpulls : s.pulls ≠ 0) : Sound s.turn := by
  obtain ⟨hcounted, hrejects, consumed, hpushed, hat⟩ := h
  rw [hready] at hat
  have hopen : Open s consumed := hat
  have hanswers := hopen.answers
  have hprev := hopen.prev
  unfold StreamCall.turn
  split
  · next c rest hqueue =>
    have hmoved : s.pushed = (consumed ++ [c]) ++ rest := by
      rw [hpushed, hqueue, List.append_assoc, List.singleton_append]
    have hexpected := (congrArg (expected 0) (hpushed.trans (congrArg _ hqueue))).trans (hopen.expected (c :: rest))
    split
    · next violation hviolation =>
      have hseq : ¬ c.seq.toInt? = some ((consumed.length : ℤ) + 1) := by
        rw [← checkStreamSeq_eq_none, ← hprev, hviolation]
        nofun
      rw [expected, if_neg hseq, ← hprev, hviolation] at hexpected
      have hclosed : Closed ({ s with queue := rest }.answer
          (.threw ("stream " ++ c.streamId ++ ": " ++ violation)) .done) 0 := by
        rw [Closed, List.replicate_zero, List.append_nil]
        change s.answers ++ [_] = (VivimOmega.Sdk.expected 0 s.pushed).1
        rw [hexpected, hanswers]
        rfl
      exact sound_answer hcounted hpulls hrejects hmoved ⟨congrArg Prod.snd hexpected, 0, hclosed⟩
    · next hlawful =>
      rw [hprev, checkStreamSeq_eq_none] at hlawful
      rw [expected, if_pos hlawful] at hexpected
      refine sound_answer hcounted hpulls hrejects hmoved ?_
      cases hfinal : c.final with
      | true =>
        rw [hfinal, if_pos rfl] at hexpected
        refine ⟨congrArg Prod.snd hexpected, ?_⟩
        rw [Closed, List.replicate_zero, List.append_nil]
        change s.answers ++ [_] = (VivimOmega.Sdk.expected 0 s.pushed).1
        rw [hexpected, hanswers]
      | false =>
        refine ⟨?_, ?_, ?_⟩
        · rw [hopen.expected [c], expected, if_pos hlawful, hfinal]
          rfl
        · change s.answers ++ [_] = _
          rw [hanswers, List.map_append]
          rfl
        · change c.seq.toInt?.getD s.prev = _
          rw [hlawful, List.length_append, List.length_singleton]
          simp
  · next hqueue =>
    have hall : s.pushed = consumed := by rw [hpushed, hqueue, List.append_nil]
    split_ifs with hsettled
    · refine sound_answer hcounted hpulls hrejects hpushed ⟨hsettled, 1, ?_⟩
      change s.answers ++ [_] = (VivimOmega.Sdk.expected 0 s.pushed).1 ++ [_]
      rw [hall, expected_open hopen.unended, hanswers]
    · have hwaiting : Open { s with phase := .waiting } consumed := hopen.congr rfl rfl
      exact ⟨hcounted, hrejects, consumed, hpushed, hwaiting, hqueue, Bool.eq_false_iff.mpr hsettled⟩

lemma sound_returned {next : Phase} (h : Sound s) (hpulls : s.pulls ≠ 0)
    (hnext : (s.phase = .closing ∨ s.phase = .done) ∧ next = .done ∨ s.phase = .drained ∧ next = .drained) :
    Sound (s.answer .done next) := by
  obtain ⟨hcounted, hrejects, consumed, hpushed, hat⟩ := h
  refine sound_answer hcounted hpulls hrejects hpushed ?_
  have hone {m : ℕ} (hclosed : Closed s m) : Closed (s.answer .done next) (m + 1) := by
    change s.answers ++ [_] = (VivimOmega.Sdk.expected 0 s.pushed).1 ++ _
    rw [hclosed, List.append_assoc, List.replicate_succ']
  obtain ⟨hphase | hphase, rfl⟩ | ⟨hphase, rfl⟩ := hnext
  · rw [hphase] at hat
    exact ⟨hat.1, 1, hone hat.2⟩
  · rw [hphase] at hat
    obtain ⟨hended, m, hclosed⟩ := hat
    exact ⟨hended, m + 1, hone hclosed⟩
  · rw [hphase] at hat
    obtain ⟨hsettled, m, hclosed⟩ := hat
    exact ⟨hsettled, m + 1, hone hclosed⟩

lemma sound_serve (n : ℕ) (h : Sound s) : Sound (StreamCall.serve n s) := by
  induction n generalizing s with
  | zero => exact h
  | succ n ih =>
    rw [StreamCall.serve]
    split_ifs with hpulls
    · exact h
    · split
      · next hphase => exact ih (sound_turn h hphase hpulls)
      · next hphase => exact ih (sound_returned h hpulls (.inl ⟨.inl hphase, rfl⟩))
      · next hphase => exact ih (sound_returned h hpulls (.inl ⟨.inr hphase, rfl⟩))
      · next hphase => exact ih (sound_returned h hpulls (.inr ⟨hphase, rfl⟩))
      · exact h
      · exact h

lemma turn_cases (s : StreamCall) : s.turn.phase = .waiting ∨ s.turn.pulls = s.pulls - 1 := by
  unfold StreamCall.turn
  split
  · split <;> exact .inr rfl
  · split_ifs
    · exact .inr rfl
    · exact .inl rfl

lemma serve_waiting (n : ℕ) (h : s.phase = .waiting) : StreamCall.serve n s = s := by
  cases n with
  | zero => rfl
  | succ n => rw [StreamCall.serve, h, ite_self]

lemma rested_serve {n : ℕ} (h : s.pulls ≤ n) : Rested (StreamCall.serve n s) := by
  induction n generalizing s with
  | zero => exact .inl (by rw [StreamCall.serve]; omega)
  | succ n ih =>
    rw [StreamCall.serve]
    split_ifs with hpulls
    · exact .inl hpulls
    · have hless (a : Answer) (next : Phase) : (s.answer a next).pulls ≤ n := by
        change s.pulls - 1 ≤ n
        omega
      split
      · obtain hwaiting | hturn := turn_cases s
        · rw [serve_waiting n hwaiting]
          exact .inr (.inl hwaiting)
        · exact ih (by omega)
      · exact ih (hless _ _)
      · exact ih (hless _ _)
      · exact ih (hless _ _)
      · next hphase => exact .inr (.inl hphase)
      · next hphase => exact .inr (.inr hphase)

lemma sound_append (c : StreamChunk) (h : Sound s) (hdrained : s.phase ≠ .drained) (hwaiting : s.phase ≠ .waiting) :
    Sound { s with queue := s.queue ++ [c], pushed := s.pushed ++ [c] } := by
  obtain ⟨hcounted, hrejects, consumed, hpushed, hat⟩ := h
  have hkeep (hended : (expected 0 s.pushed).2 = true) : expected 0 (s.pushed ++ [c]) = expected 0 s.pushed := by
    rw [expected_append, if_pos hended]
  refine ⟨hcounted, fun hrejected => ?_, consumed, ?_, ?_⟩
  · change (expected 0 (s.pushed ++ [c])).2 = true
    rw [hkeep (hrejects hrejected)]
    exact hrejects hrejected
  · change s.pushed ++ [c] = consumed ++ (s.queue ++ [c])
    rw [hpushed, List.append_assoc]
  · change At _ consumed s.phase
    have hclosed {m : ℕ} (hended : (expected 0 s.pushed).2 = true) (h : Closed s m) :
        (expected 0 (s.pushed ++ [c])).2 = true ∧
          Closed { s with queue := s.queue ++ [c], pushed := s.pushed ++ [c] } m := by
      refine ⟨(hkeep hended).symm ▸ hended, ?_⟩
      change s.answers = (expected 0 (s.pushed ++ [c])).1 ++ _
      rw [hkeep hended]
      exact h
    cases hphase : s.phase with
    | ready =>
      rw [hphase] at hat
      exact Open.congr hat rfl rfl
    | woken =>
      rw [hphase] at hat
      exact Open.congr hat rfl rfl
    | waiting => exact absurd hphase hwaiting
    | closing =>
      rw [hphase] at hat
      exact hclosed hat.1 hat.2
    | done =>
      rw [hphase] at hat
      obtain ⟨hended, m, hall⟩ := hat
      exact ⟨(hclosed hended hall).1, m, (hclosed hended hall).2⟩
    | drained => exact absurd hphase hdrained

lemma sound_wake (h : Sound s) : Sound s.wake ∧ s.wake.phase ≠ .waiting := by
  unfold StreamCall.wake
  split_ifs with hphase
  · obtain ⟨hcounted, hrejects, consumed, hpushed, hat⟩ := h
    rw [hphase] at hat
    obtain ⟨hopen, -, -⟩ := hat
    exact ⟨⟨hcounted, hrejects, consumed, hpushed, hopen.congr rfl rfl⟩, nofun⟩
  · exact ⟨h, hphase⟩

lemma sound_push {maxBuffered : ℤ} {c : StreamChunk} {tap : Option String} (h : Sound s)
    (hok : Orderly maxBuffered s (.push c tap)) : Sound (s.push maxBuffered c tap) := by
  cases tap with
  | some error => exact h
  | none =>
    obtain ⟨hdrained, hbound⟩ := hok rfl
    by_cases hwaiting : s.phase = .waiting
    · obtain ⟨consumed, hpushed, hat⟩ := h.place
      rw [hwaiting] at hat
      have hroom : ¬ maxBuffered < ((s.queue ++ [c]).length : ℤ) := by
        rw [hat.2.1]
        exact not_lt.mpr (hbound hwaiting)
      have hpush : s.push maxBuffered c none =
          { s.wake with queue := s.wake.queue ++ [c], pushed := s.wake.pushed ++ [c] } := by
        simp only [StreamCall.push, StreamCall.wake, if_neg hroom, if_pos hwaiting]
      rw [hpush]
      refine sound_append c (sound_wake h).1 ?_ (sound_wake h).2
      rw [StreamCall.wake, if_pos hwaiting]
      nofun
    · have hpush : s.push maxBuffered c none = { s with queue := s.queue ++ [c], pushed := s.pushed ++ [c] } := by
        simp only [StreamCall.push, StreamCall.wake, if_neg hwaiting, ite_self]
      rw [hpush]
      exact sound_append c h hdrained hwaiting

lemma sound_settle (h : Sound s) : Sound ({ s with settled := true }.wake) := by
  obtain ⟨hcounted, hrejects, consumed, hpushed, hat⟩ := h
  unfold StreamCall.wake
  split_ifs with hphase
  · have hwaiting : s.phase = .waiting := hphase
    rw [hwaiting] at hat
    exact ⟨hcounted, hrejects, consumed, hpushed, hat.1.congr rfl rfl⟩
  · refine ⟨hcounted, hrejects, consumed, hpushed, ?_⟩
    change At _ consumed s.phase
    cases hcase : s.phase with
    | waiting => exact absurd hcase hphase
    | drained =>
      rw [hcase] at hat
      exact ⟨rfl, hat.2⟩
    | ready | woken =>
      rw [hcase] at hat
      exact Open.congr hat rfl rfl
    | closing | done =>
      rw [hcase] at hat
      exact hat

lemma rested_wake (h : Rested s) : Rested s.wake := by
  unfold StreamCall.wake
  split_ifs
  · exact .inr (.inr rfl)
  · exact h

lemma rested_push {maxBuffered : ℤ} {c : StreamChunk} {tap : Option String} (h : Rested s) :
    Rested (s.push maxBuffered c tap) := by
  cases tap with
  | some error => exact h
  | none =>
    simp only [StreamCall.push]
    split_ifs
    · exact h
    · exact rested_wake h

lemma sound_step {maxBuffered : ℤ} {e : StreamEvent} {t : StreamCall} (h : Sound s ∧ Rested s)
    (hok : Orderly maxBuffered s e) (he : s.step maxBuffered e = some t) : Sound t ∧ Rested t := by
  obtain ⟨hsound, hrested⟩ := h
  cases e with
  | push c tap =>
    obtain rfl := Option.some.inj he
    exact ⟨sound_push hsound hok, rested_push hrested⟩
  | settle =>
    rw [StreamCall.step] at he
    split_ifs at he
    obtain rfl := Option.some.inj he
    exact ⟨sound_settle hsound, rested_wake hrested⟩
  | reject =>
    rw [StreamCall.step] at he
    split_ifs at he
    obtain rfl := Option.some.inj he
    obtain ⟨hcounted, -, consumed, hpushed, hat⟩ := hsound
    exact ⟨⟨hcounted, fun _ => hok, consumed, hpushed, hat.congr rfl rfl rfl rfl rfl⟩, hrested⟩
  | pull =>
    obtain rfl := Option.some.inj he
    obtain ⟨hcounted, hrejects, consumed, hpushed, hat⟩ := hsound
    have hasked : s.answers.length + (s.pulls + 1) = s.asked + 1 := by omega
    have hpull : Sound { s with pulls := s.pulls + 1, asked := s.asked + 1 } :=
      ⟨hasked, hrejects, consumed, hpushed, hat.congr rfl rfl rfl rfl rfl⟩
    exact ⟨sound_serve _ hpull, rested_serve le_rfl⟩
  | resume =>
    rw [StreamCall.step] at he
    split_ifs at he with hphase
    obtain rfl := Option.some.inj he
    obtain ⟨hcounted, hrejects, consumed, hpushed, hat⟩ := hsound
    rw [hphase] at hat
    have hready : Sound { s with phase := .ready } := ⟨hcounted, hrejects, consumed, hpushed, Open.congr hat rfl rfl⟩
    exact ⟨sound_serve _ hready, rested_serve le_rfl⟩

lemma streamLaw_sound (h : Sound s ∧ Rested s) : StreamLaw s := by
  obtain ⟨⟨hcounted, hrejects, consumed, hpushed, hat⟩, hrested⟩ := h
  have htaken (hopen : Open s consumed) : s.answers <+: (VivimOmega.Sdk.expected 0 s.pushed).1 := by
    rw [hpushed, hopen.expected, hopen.answers]
    exact List.prefix_append _ _
  refine ⟨hcounted, ?_, fun hpulls hwoken => ?_⟩
  · have hrun (hopen : Open s consumed) : ∃ taken m, s.answers = taken ++ List.replicate m .done ∧
        taken <+: (VivimOmega.Sdk.expected 0 s.pushed).1 ∧ (m ≠ 0 → taken = (VivimOmega.Sdk.expected 0 s.pushed).1 ∧
          ((VivimOmega.Sdk.expected 0 s.pushed).2 = true ∨ s.settled = true)) :=
      ⟨s.answers, 0, (List.append_nil _).symm, htaken hopen, fun hm => absurd rfl hm⟩
    cases hphase : s.phase with
    | ready => exact hrun (by rwa [hphase] at hat)
    | woken => exact hrun (by rwa [hphase] at hat)
    | waiting =>
      rw [hphase] at hat
      exact hrun hat.1
    | closing =>
      rw [hphase] at hat
      exact ⟨_, 0, hat.2, List.prefix_rfl, fun hm => absurd rfl hm⟩
    | done =>
      rw [hphase] at hat
      obtain ⟨hended, m, hclosed⟩ := hat
      exact ⟨_, m, hclosed, List.prefix_rfl, fun _ => ⟨rfl, .inl hended⟩⟩
    | drained =>
      rw [hphase] at hat
      obtain ⟨hsettled, m, hclosed⟩ := hat
      exact ⟨_, m, hclosed, List.prefix_rfl, fun _ => ⟨rfl, .inr hsettled⟩⟩
  · have hphase : s.phase = .waiting := (hrested.resolve_left hpulls).resolve_right hwoken
    rw [hphase] at hat
    obtain ⟨hopen, hqueue, hsettled⟩ := hat
    have hexpected := congrArg (VivimOmega.Sdk.expected 0) hpushed
    rw [hqueue, List.append_nil] at hexpected
    have hunended : (VivimOmega.Sdk.expected 0 s.pushed).2 = false := by rw [hexpected, hopen.unended]
    refine ⟨hqueue, hsettled, ?_, ?_, hunended⟩
    · refine Bool.eq_false_iff.mpr fun hrejected => ?_
      exact Bool.false_ne_true (hunended.symm.trans (hrejects hrejected))
    · rw [hexpected, expected_open hopen.unended, hopen.answers]

end Invariant

section Producer

structure Emitter where
  seq : ℤ
  closed : Bool
  failed : Bool
  sent : List StreamChunk

structure Emission where
  data : Value
  final : Bool
  posts : Bool

namespace Emitter

/-- One call of emit, with the error that it throws: the number is taken before the message is posted. -/
def emit (causationId : String) (s : Emitter) (e : Emission) : Emitter × Option String :=
  if s.closed then
    (s, some ("emit after final (stream " ++ causationId ++ ") \u2014 protocol violation"))
  else if e.posts then
    ({ s with
        closed := e.final
        seq := s.seq + 1
        sent := s.sent ++ [⟨causationId, .ofInt s.seq, e.data, e.final⟩] }, none)
  else ({ s with closed := e.final, seq := s.seq + 1, failed := true }, some "DataCloneError")

end Emitter

def newEmitter : Emitter := ⟨STREAM_SEQ_START, false, false, []⟩

def emitter (causationId : String) : System Emitter Emission where
  init s := s = newEmitter
  step s e := some (s.emit causationId e).1

/-- No chunk is posted after one that could not be posted. -/
def Posted (s : Emitter) (e : Emission) : Prop := s.failed = true → s.closed = true ∨ e.posts = false

/-- The chunks sent are accepted one after the other, and none follows a final one. -/
def EmitLaw (sent : List StreamChunk) : Prop := ∀ (n : ℕ) c, sent[n]? = some c →
  checkStreamSeq n c = none ∧ (c.final = true → n + 1 = sent.length)

structure Emitting (s : Emitter) : Prop where
  law : EmitLaw s.sent
  closed : ∀ c ∈ s.sent, c.final = true → s.closed = true
  next : s.failed = false → s.seq = s.sent.length + 1

variable {causationId : String} {s t : Emitter} {e : Emission}

lemma emitting_emit (h : Emitting s) (hok : Posted s e) : Emitting (s.emit causationId e).1 := by
  obtain ⟨hlaw, hclosed, hnext⟩ := h
  unfold Emitter.emit
  split_ifs with hshut hposts
  · exact ⟨hlaw, hclosed, hnext⟩
  · have hfailed : s.failed = false := by
      refine Bool.eq_false_iff.mpr fun hfailed => ?_
      obtain hclosed | hnone := hok hfailed
      · exact hshut hclosed
      · exact Bool.false_ne_true (hnone.symm.trans hposts)
    have hseq := hnext hfailed
    have hunfinished (c : StreamChunk) (hc : c ∈ s.sent) : c.final ≠ true := fun hfinal => hshut (hclosed c hc hfinal)
    refine ⟨fun n c hn => ?_, fun c hc hfinal => ?_, fun _ => ?_⟩
    · change (s.sent ++ [_])[n]? = some c at hn
      obtain hlt | heq | hgt := lt_trichotomy n s.sent.length
      · rw [List.getElem?_append_left hlt] at hn
        exact ⟨(hlaw n c hn).1, fun hfinal => absurd hfinal (hunfinished c (List.mem_of_getElem? hn))⟩
      · rw [heq, List.getElem?_concat_length, Option.some.injEq] at hn
        refine ⟨?_, fun _ => ?_⟩
        · rw [checkStreamSeq_eq_none, ← hn, toInt?_ofInt, hseq, heq]
        · change n + 1 = (s.sent ++ [_]).length
          rw [List.length_append, List.length_singleton, heq]
      · rw [List.getElem?_append_right hgt.le, List.getElem?_singleton, if_neg (by omega)] at hn
        exact nomatch hn
    · obtain hold | hnew := List.mem_append.mp hc
      · exact absurd hfinal (hunfinished c hold)
      · obtain rfl := List.mem_singleton.mp hnew
        exact hfinal
    · change s.seq + 1 = ((s.sent ++ [_]).length : ℤ) + 1
      rw [List.length_append, List.length_singleton, hseq]
      rfl
  · exact ⟨hlaw, fun c hc hfinal => absurd (hclosed c hc hfinal) hshut, nofun⟩

theorem stream_law (maxBuffered : ℤ) (causationId : String) :
    (∀ s, (streamRootCall maxBuffered).Reachable (Orderly maxBuffered) s → StreamLaw s) ∧
      ∀ s, (emitter causationId).Reachable Posted s → EmitLaw s.sent := by
  refine ⟨fun s h => ?_, fun s h => ?_⟩
  · refine streamLaw_sound (h.invariant (P := fun s => Sound s ∧ Rested s) (fun s hs => ?_)
      (fun s e t _ hsound hok he => sound_step hsound hok he))
    obtain rfl : s = newStream := hs
    exact ⟨⟨rfl, nofun, [], rfl, rfl, rfl, rfl⟩, .inl rfl⟩
  · refine Emitting.law (h.invariant (fun s hs => ?_) (fun s e t _ hlaw hok he => ?_))
    · obtain rfl : s = newEmitter := hs
      exact ⟨nofun, nofun, fun _ => rfl⟩
    · obtain rfl := Option.some.inj he
      exact emitting_emit hlaw hok

instance postedDecidable (s : Emitter) (e : Emission) : Decidable (Posted s e) := by
  unfold Posted
  infer_instance

def sampleChunk (seq : ℤ) (final : Bool) : StreamChunk := ⟨"c-1", .ofInt seq, .null, final⟩

theorem stream_law_two : (∃ s, (streamRootCall 1000).Reachable (Orderly 1000) s ∧
      (s.answers.length = 3 ∧ s.phase = .done) ∧ StreamLaw s) ∧
    ∃ s, (emitter "c-1").Reachable Posted s ∧ s.sent.length = 2 ∧ EmitLaw s.sent := by
  have hrun : ((streamRootCall 1000).exec (Orderly 1000) newStream
      [.push (sampleChunk 1 false) none, .pull, .pull, .push (sampleChunk 2 true) none, .resume, .pull, .settle]).map
      (fun s => decide (s.answers.length = 3 ∧ s.phase = .done)) = some true := by decide
  have hemit : ((emitter "c-1").exec Posted newEmitter
      [⟨.null, false, true⟩, ⟨.null, true, true⟩, ⟨.null, false, true⟩]).map
      (fun s => decide (s.sent.length = 2)) = some true := by decide
  obtain ⟨s, hs, hdone⟩ := System.exec_spec rfl hrun
  obtain ⟨t, ht, hsent⟩ := System.exec_spec rfl hemit
  exact ⟨⟨s, hs, of_decide_eq_true hdone, (stream_law 1000 "c-1").1 s hs⟩,
    t, ht, of_decide_eq_true hsent, (stream_law 1000 "c-1").2 t ht⟩

/-- The routed call rejects while a pull waits on the empty buffer, and nothing wakes it. -/
theorem rejected_pending : ¬ ∀ s, (streamRootCall 1000).Reachable System.free s → StreamLaw s := by
  intro hall
  have hrun : ((streamRootCall 1000).exec System.free newStream [.pull, .reject]).map
      (fun s => decide (s.pulls ≠ 0 ∧ s.phase ≠ .woken ∧ s.rejected = true)) = some true := by decide
  obtain ⟨s, hs, hrejected⟩ := System.exec_spec rfl hrun
  obtain ⟨hpulls, hwoken, hrejected⟩ := of_decide_eq_true hrejected
  obtain ⟨-, -, hpending, -⟩ := (hall s hs).pending hpulls hwoken
  exact Bool.false_ne_true (hpending.symm.trans hrejected)

end Producer

end VivimOmega.Sdk

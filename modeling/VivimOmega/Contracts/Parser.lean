import VivimOmega.Library.Json.Stringify

/-! The rows a parser may produce, and the envelopes they are wrapped into. -/

namespace VivimOmega.Contracts

open Library.Json

structure ParsedChunk (α : Type) where
  data : α
  final : Bool
  deriving DecidableEq

structure ChunkEnvelope (α : Type) where
  streamId : String
  seq : ℕ
  data : α
  final : Bool

def STREAM_SEQ_START : ℕ := 1

variable {α : Type}

/-- The rows from the one at an index. -/
def buildChunks (streamId : String) : ℕ → List (ParsedChunk α) → Except String (List (ChunkEnvelope α))
  | _, [] => return []
  | i, [c] =>
    if c.final then return [⟨streamId, STREAM_SEQ_START + i, c.data, c.final⟩]
    else throw "buildChunkEnvelope: the last chunk must be final (terminating-chunk law)"
  | i, c :: d :: rest =>
    if c.final then
      throw ("buildChunkEnvelope: chunk " ++ toString i ++ " is final but not last (exactly-one-final law)")
    else do
      let built ← buildChunks streamId (i + 1) (d :: rest)
      return ⟨streamId, STREAM_SEQ_START + i, c.data, c.final⟩ :: built

def buildChunkEnvelope (streamId : String) (parsed : List (ParsedChunk α)) : Except String (List (ChunkEnvelope α)) :=
  if streamId = "" then throw "buildChunkEnvelope: streamId must be a non-empty string"
  else if parsed = [] then throw "buildChunkEnvelope: a parse must produce at least one chunk"
  else buildChunks streamId 0 parsed

lemma buildChunks_ok (streamId : String) (i : ℕ) {rows : List (ParsedChunk α)} {last : ParsedChunk α}
    (hrows : ∀ c ∈ rows, c.final = false) (hlast : last.final = true) :
    ∃ built, buildChunks streamId i (rows ++ [last]) = .ok built := by
  induction rows generalizing i with
  | nil => exact ⟨_, if_pos hlast⟩
  | cons c rest ih =>
    obtain ⟨hc, hrest⟩ := List.forall_mem_cons.mp hrows
    obtain ⟨built, hbuilt⟩ := ih (i + 1) hrest
    obtain ⟨d, tail, htail⟩ := List.exists_cons_of_ne_nil (List.append_ne_nil_of_right_ne_nil rest (List.cons_ne_nil last []))
    rw [htail] at hbuilt
    refine ⟨⟨streamId, STREAM_SEQ_START + i, c.data, c.final⟩ :: built, ?_⟩
    rw [List.cons_append, htail, buildChunks, if_neg (by simp [hc]), hbuilt, ok_bind]
    rfl

/-- Rows with one final row, the last one, are accepted. -/
lemma buildChunkEnvelope_ok {streamId : String} (hid : streamId ≠ "") {rows : List (ParsedChunk α)} {last : ParsedChunk α}
    (hrows : ∀ c ∈ rows, c.final = false) (hlast : last.final = true) :
    ∃ built, buildChunkEnvelope streamId (rows ++ [last]) = .ok built := by
  obtain ⟨built, hbuilt⟩ := buildChunks_ok streamId 0 hrows hlast
  refine ⟨built, ?_⟩
  rw [buildChunkEnvelope, if_neg hid, if_neg (by simp), hbuilt]

end VivimOmega.Contracts

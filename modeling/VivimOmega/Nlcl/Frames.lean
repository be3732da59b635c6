import VivimOmega.Library.OrderedMap
import VivimOmega.Nlcl.Ground
import VivimOmega.Nlcl.Lexer

/-! The frames of the command language: what each op is called, and the slots that its words fill. -/

namespace VivimOmega.Nlcl

open Library Library.Json

section Frames

inductive SlotKind
  | entity | text | content | enum | rest
  deriving DecidableEq

/-- An absent list of prepositions or of enum values is read as an empty one. -/
structure FrameSlot where
  role : JsString
  kind : SlotKind
  preps : List JsString := []
  entityTypes : Option (List JsString) := none
  enumValues : List JsString := []
  required : Bool := false
  patient : Bool := false
  payloadKey : Option JsString := none
  family : Option Family := none

structure OpFrame where
  op : JsString
  verbs : List JsString
  family : Family
  surfaceOnly : Bool
  slots : List FrameSlot

def texts (ss : List String) : List JsString := ss.map ofText

def FOLDERS : List JsString := texts ["inbox", "sent", "archive", "trash", "drafts"]

def messageSend : OpFrame where
  op := ofText "message.send@1"
  verbs := texts ["send", "mail", "forward", "reply", "write"]
  family := .command
  surfaceOnly := false
  slots :=
    [{ role := ofText "message", kind := .content, patient := true, required := true, payloadKey := ofText "body" },
      { role := ofText "to", kind := .entity, entityTypes := texts ["contact"], preps := texts ["to"], required := true,
        payloadKey := ofText "to", family := some .direction },
      { role := ofText "subject", kind := .text, preps := texts ["about", "re", "subject", "regarding"],
        payloadKey := ofText "subject" }]

def messageReceive : OpFrame where
  op := ofText "message.receive@1"
  verbs := texts ["simulate", "receive", "pretend", "imagine"]
  family := .command
  surfaceOnly := false
  slots :=
    [{ role := ofText "from", kind := .entity, entityTypes := texts ["contact"], preps := texts ["from"],
        patient := true, required := true, payloadKey := ofText "from" },
      { role := ofText "body", kind := .content, preps := texts ["saying"], payloadKey := ofText "body" }]

def messageList : OpFrame where
  op := ofText "message.list@1"
  verbs := texts ["list", "inbox", "mailbox", "show"]
  family := .query
  surfaceOnly := false
  slots :=
    [{ role := ofText "folder", kind := .enum, enumValues := FOLDERS, preps := texts ["in", "from"],
        payloadKey := ofText "folder" }]

def messageSearch : OpFrame where
  op := ofText "message.search@1"
  verbs := texts ["search", "find", "grep", "look"]
  family := .query
  surfaceOnly := false
  slots := [{ role := ofText "q", kind := .rest, required := true, payloadKey := ofText "q" }]

def messageSlot : FrameSlot :=
  { role := ofText "id", kind := .entity, entityTypes := texts ["message"], patient := true, required := true,
    payloadKey := ofText "id" }

def messageRead : OpFrame where
  op := ofText "message.read@1"
  verbs := texts ["read", "open"]
  family := .command
  surfaceOnly := false
  slots := [messageSlot]

def messageMove : OpFrame where
  op := ofText "message.move@1"
  verbs := texts ["move", "archive", "trash", "file", "put"]
  family := .delta
  surfaceOnly := false
  slots :=
    [messageSlot,
      { role := ofText "folder", kind := .enum, enumValues := FOLDERS, preps := texts ["to", "into", "in"],
        required := true, payloadKey := ofText "folder" }]

/-- A frame without slots: its phrases are those of a recognizer, or it takes none. -/
def bareFrame (op : String) (verbs : List String) (family : Family) (surfaceOnly : Bool) : OpFrame :=
  ⟨ofText op, texts verbs, family, surfaceOnly, []⟩

def surfaceAssist : OpFrame where
  op := ofText "surface.assist"
  verbs := texts ["ask"]
  family := .query
  surfaceOnly := true
  slots := [{ role := ofText "q", kind := .rest, required := true, payloadKey := ofText "q" }]

def DEFAULT_FRAMES : List OpFrame :=
  [messageSend, messageReceive, messageList, messageSearch, messageRead, messageMove,
    bareFrame "director.rule@1" ["automate", "rule"] .add false,
    bareFrame "director.registry@1" ["rules", "automations"] .query false,
    bareFrame "director.teach@1" ["teach"] .assert false,
    bareFrame "mind.query@1" ["know"] .query false,
    bareFrame "surface.help" [] .query true,
    bareFrame "surface.entity" [] .reference true,
    surfaceAssist]

variable (U : Engine)

def isOpSeparator (u : UInt16) : Bool := u = unitOf '.' || u = unitOf ':'

def opLocal (op : JsString) : JsString := op.takeWhile (· ≠ unitOf '@')

def opShortName (op : JsString) : JsString := (parts isOpSeparator (opLocal op)).getLast?.getD (opLocal op)

def genericFrame (op : JsString) : OpFrame where
  op := op
  verbs := [fold U.toUnicode (opShortName op), (opLocal op).map fun u => if isOpSeparator u then 32 else u]
  family := .command
  surfaceOnly := false
  slots := [{ role := ofText "arg", kind := .rest, payloadKey := ofText "arg" }]

def framesForWorld (world : WorldModel) : List OpFrame :=
  DEFAULT_FRAMES.filter (fun f => f.surfaceOnly || f.op ∈ world.ops) ++
    (world.ops.filter fun op => op ∉ DEFAULT_FRAMES.map OpFrame.op).map (genericFrame U)

end Frames

section Verbs

inductive VerbMatchClass
  | exact | taught | fuzzy
  deriving DecidableEq

def VerbMatchClass.rank : VerbMatchClass → ℕ
  | exact => 0
  | taught => 1
  | fuzzy => 2

def isNear (norm v : JsString) : Bool :=
  v.length - norm.length + (norm.length - v.length) ≤ 1 && lev norm v 1 ≤ 1

def classifyVerb (norm : JsString) (builtinVerbs taughtVerbs : List JsString) : Option (VerbMatchClass × JsString) :=
  if norm ∈ builtinVerbs then some (.exact, norm)
  else if norm ∈ taughtVerbs then some (.taught, norm)
  else if 5 ≤ norm.length then ((builtinVerbs ++ taughtVerbs).find? (isNear norm)).map fun v => (.fuzzy, v)
  else none

structure VerbHit where
  frame : OpFrame
  verb : JsString
  cls : VerbMatchClass

variable (U : Engine)

def taughtWords (world : WorldModel) : OrderedMap JsString JsString :=
  OrderedMap.ofEntries (world.lexicon.map fun e => (fold U.toUnicode e.word, e.op))

/-- A taught word also reaches an op of the world that has no frame here. -/
def verbHits (word : JsString) (frames : List OpFrame) (world : WorldModel) : List VerbHit :=
  let taught := (taughtWords U world).entries
  let hits := frames.filterMap fun frame =>
    (classifyVerb word frame.verbs ((taught.filter fun e => e.2 = frame.op).map Prod.fst)).map fun c =>
      VerbHit.mk frame c.2 c.1
  if hits.any (·.cls = .taught) then hits
  else hits ++ (taught.filter fun e => e.1 = word ∧ e.2 ∈ world.ops ∧ e.2 ∉ frames.map OpFrame.op).map fun e =>
    VerbHit.mk (genericFrame U e.2) e.1 .taught

end Verbs

section Routed

variable {U : Engine} {world : WorldModel}

def surfacePrefix : JsString := ofText "surface."

/-- What may be proposed: an intent that the surfaces serve themselves, or an op of the world. -/
def Routed (world : WorldModel) (op : JsString) : Prop := surfacePrefix <+: op ∨ op ∈ world.ops

instance routedDecidable (op : JsString) : Decidable (Routed world op) := by
  unfold Routed
  infer_instance

lemma routed_framesForWorld {f : OpFrame} (h : f ∈ framesForWorld U world) : Routed world f.op := by
  obtain hdefault | hgeneric := List.mem_append.mp h
  · obtain ⟨hmem, hkept⟩ := List.mem_filter.mp hdefault
    obtain hsurface | hrouted := Bool.or_eq_true_iff.mp hkept
    · have hnamed : ∀ f ∈ DEFAULT_FRAMES, f.surfaceOnly = true → surfacePrefix <+: f.op := by decide
      exact .inl (hnamed f hmem hsurface)
    · exact .inr (of_decide_eq_true hrouted)
  · obtain ⟨op, hop, rfl⟩ := List.mem_map.mp hgeneric
    exact .inr (List.mem_filter.mp hop).1

lemma covered_framesForWorld {op : JsString} (h : op ∈ world.ops) : op ∈ (framesForWorld U world).map OpFrame.op := by
  by_cases hdefault : op ∈ DEFAULT_FRAMES.map OpFrame.op
  · obtain ⟨f, hf, rfl⟩ := List.mem_map.mp hdefault
    have hkept : f ∈ DEFAULT_FRAMES.filter fun f => f.surfaceOnly || f.op ∈ world.ops :=
      List.mem_filter.mpr ⟨hf, by rw [decide_eq_true h, Bool.or_true]⟩
    exact List.mem_map_of_mem (List.mem_append_left _ hkept)
  · have hkept : op ∈ world.ops.filter fun op => op ∉ DEFAULT_FRAMES.map OpFrame.op :=
      List.mem_filter.mpr ⟨h, decide_eq_true hdefault⟩
    have hgeneric := List.mem_append_right (DEFAULT_FRAMES.filter fun f => f.surfaceOnly || f.op ∈ world.ops)
      (List.mem_map_of_mem hkept : genericFrame U op ∈ _)
    exact List.mem_map_of_mem hgeneric

/-- With a frame for every op of the world, a hit is at one of the frames. -/
lemma mem_of_verbHits {word : JsString} {frames : List OpFrame} {hit : VerbHit}
    (hcover : ∀ op ∈ world.ops, op ∈ frames.map OpFrame.op) (h : hit ∈ verbHits U word frames world) :
    hit.frame ∈ frames := by
  have hbuiltin : ∀ h ∈ frames.filterMap fun frame =>
      (classifyVerb word frame.verbs
        (((taughtWords U world).entries.filter fun e => e.2 = frame.op).map Prod.fst)).map fun c =>
          VerbHit.mk frame c.2 c.1, h.frame ∈ frames := by
    intro h hh
    obtain ⟨frame, hframe, hc⟩ := List.mem_filterMap.mp hh
    obtain ⟨c, -, rfl⟩ := Option.map_eq_some_iff.mp hc
    exact hframe
  unfold verbHits at h
  dsimp only at h
  split_ifs at h with htaught
  · exact hbuiltin hit h
  · obtain hb | hg := List.mem_append.mp h
    · exact hbuiltin hit hb
    · obtain ⟨e, he, rfl⟩ := List.mem_map.mp hg
      obtain ⟨-, hop, hother⟩ := of_decide_eq_true (List.mem_filter.mp he).2
      exact absurd (hcover e.2 hop) hother

end Routed

end VivimOmega.Nlcl

import VivimOmega.Host.Routing
import VivimOmega.Library.Process

/-! The tools that an MCP client sees of a booted composition, and the op that a tool call runs. -/

namespace VivimOmega.Mcp

open Library Library.Json Contracts Host

section Naming

def replaceAll (s : String) (c d : Char) : String := String.ofList (s.toList.map fun x => if x = c then d else x)

def opToToolName (op : String) : String := replaceAll (replaceAll op '.' '_') '@' '_'

end Naming

structure SurfaceOpMeta where
  pluginId : String
  risk : String

structure McpServerDeps where
  recipeName : String
  bootSource : String
  opMeta : OrderedMap String SurfaceOpMeta
  toolToOp : OrderedMap String String

structure Tool where
  name : String
  description : String
  inputDescription : String
  deriving DecidableEq

section Listing

def toolDescription (op : String) (found : Option SurfaceOpMeta) : String :=
  "VIVIM routed op " ++ op ++ " — owner " ++ (found.map SurfaceOpMeta.pluginId).getD "?" ++ ", declared risk " ++
    (found.map SurfaceOpMeta.risk).getD "READ" ++
    ". Calling it runs router.callAsRoot; the tool arguments are the op payload verbatim."

def genericInputDescription (op : String) : String :=
  "Arguments are the raw JSON payload for " ++ op ++ " (the op's own contract defines the fields)."

/-- The order of `localeCompare` is the environment's. -/
def buildTools (localeLe : String → String → Bool) (deps : McpServerDeps) : List Tool :=
  (deps.toolToOp.entries.mergeSort fun a b => localeLe a.1 b.1).map fun e =>
    ⟨e.1, toolDescription e.2 (deps.opMeta.get? e.2), genericInputDescription e.2⟩

end Listing

section Calling

/-- What goes to `router.callAsRoot`. -/
structure RootCall where
  op : String
  payload : Value
  deadlineMs : ℕ

structure ToolResult where
  text : String
  isError : Bool

def typeOf : Value → String
  | .undefined => "undefined"
  | .bigint _ => "bigint"
  | .bool _ => "boolean"
  | .number _ => "number"
  | .string _ => "string"
  | _ => "object"

def isObject : Value → Bool
  | .array _ => true
  | .object _ => true
  | _ => false

def callDeadlineMs : ℕ := 10000

def contentError (text : String) : ToolResult := ⟨text, true⟩

def sameLetter (c d : Char) : Bool := c.toLower = d.toLower

def dropLetters : List Char → List Char → Option (List Char)
  | [], cs => some cs
  | _ :: _, [] => none
  | p :: ps, c :: cs => if sameLetter p c then dropLetters ps cs else none

def isHexLetter (c : Char) : Bool := c.isDigit || ('a' ≤ c.toLower && c.toLower ≤ 'f')

/-- `CONSENT_RE` at one place: the id that follows. -/
def consentHere (cs : List Char) : Option String := do
  let afterWords ← dropLetters "consent required".toList cs
  let afterColon := if afterWords.head? = some ':' then afterWords.tail else afterWords
  let id := afterColon.dropWhile Text.isBlank
  let digits ← dropLetters "consent_".toList id
  if 16 ≤ digits.length ∧ (digits.take 16).all isHexLetter then some (String.ofList (id.take 24)) else none

def consentIn : List Char → Option String
  | [] => none
  | c :: cs => (consentHere (c :: cs)).or (consentIn cs)

def resultOk (r : Value) : Bool := !isFalsy (optionalProperty r "ok")

def toolResultText (deps : McpServerDeps) (op : String) (r : Value) : Except String String := do
  let shown ← stringifyPretty r
  let consent := if resultOk r then none
    else consentIn ((stringOf (optionalProperty r "detail")).getD "").toList
  match consent with
  | none => return shown
  | some id =>
    let grantHint := match deps.toolToOp.get? "law_consent_grant_1" with
      | some _ => "tools/call law_consent_grant_1 with \x7b\"consentId\":\"" ++ id ++
        "\"\x7d (this server holds the booted composition, so the grant is live here)"
      | none => "grant consent " ++ id ++ " through this composition's law plugin"
    let rule := optionalProperty (optionalProperty r "refusal") "rule"
    let ruleLine := if isFalsy rule then "" else "\nrule: " ++ jsString rule
    return "CONSENT REQUIRED — the law gate refused " ++ op ++ ".\nconsentId: " ++ id ++ ruleLine ++
      "\n\nGrant it: " ++ grantHint ++ "\n\nPortResult:\n" ++ shown

/-- The op that a name in a request stands for. -/
def McpServerDeps.opOf (deps : McpServerDeps) (name : JsString) : Option String :=
  (deps.toolToOp.entries.find? fun e => ofText e.1 = name).map Prod.snd

inductive Choice
  | refused (result : ToolResult)
  | run (call : RootCall)

def unknownTool (name : JsString) : ToolResult :=
  contentError ("unknown tool '" ++ toText name ++
    "' — tools are generated from this composition's routed ops (see tools/list)")

/-- `callTool` up to the call. -/
def chooseCall (deps : McpServerDeps) (params : Value) : Except String Choice :=
  let p := if isObject params then params else .object []
  let arguments := optionalProperty p "arguments"
  match optionalProperty p "name" with
  | .string name =>
    if !arguments.isUndefined && !isObject arguments then
      return .refused (contentError ("tools/call arguments must be a JSON object (got " ++ typeOf arguments ++ ")"))
    else
      match deps.opOf name with
      | none => return .refused (unknownTool name)
      | some op =>
        if op = "" then return .refused (unknownTool name)
        else return .run ⟨op, if arguments.isUndefined then .object [] else arguments, callDeadlineMs⟩
  | name => do
    let shown ← shown name
    return .refused (contentError
      ("tools/call requires \x7bname: string, arguments?: object\x7d (got name: " ++ shown ++ ")"))

def toolResult (deps : McpServerDeps) (op : String) (r : Value) : Except String ToolResult := do
  let text ← toolResultText deps op r
  return ⟨text, !resultOk r⟩

def callTool (deps : McpServerDeps) (params : Value) : Throwing RootCall (fun _ => Value) ToolResult := do
  match ← liftM (chooseCall deps params) with
  | .refused result => return result
  | .run call => do
    let r ← Throwing.ask call
    liftM (toolResult deps call.op r)

end Calling

/-- `main`, of the ops that the booted router says are routed. -/
def mcpDeps (recipeName bootSource : String) (opMeta : OrderedMap String SurfaceOpMeta) (routedOps : List String) :
    McpServerDeps where
  recipeName
  bootSource
  opMeta
  toolToOp := .ofEntries (routedOps.map fun op => (opToToolName op, op))

section Exactness

variable {localeLe : String → String → Bool} {deps : McpServerDeps} {routed : List String}
  {router : RootCall → Value} {params : Value}

def toolOf (deps : McpServerDeps) (op : String) : Tool :=
  ⟨opToToolName op, toolDescription op (deps.opMeta.get? op), genericInputDescription op⟩

/-- The calls that a request makes, with whatever the router answers. -/
def callsOf (deps : McpServerDeps) (params : Value) (router : RootCall → Value) : List RootCall :=
  ((callTool deps params).run.told router).1.map Sigma.fst

def payloadOf (params : Value) : Value :=
  let arguments := optionalProperty params "arguments"
  if arguments.isUndefined then .object [] else arguments

def toolCall (name : String) (arguments : Value) : Value :=
  .object [(ofText "name", jsText name), (ofText "arguments", arguments)]

/-- One tool an op, each name its own, and each request runs the op of the name that it gives, once, or none. -/
structure Exact (localeLe : String → String → Bool) (deps : McpServerDeps) (routed : List String) : Prop where
  listed : (buildTools localeLe deps).Perm (routed.map (toolOf deps))
  distinct : Set.InjOn opToToolName {op | op ∈ routed}
  called : ∀ params router, callsOf deps params router = [] ∨ ∃ op ∈ routed,
    optionalProperty params "name" = jsText (opToToolName op) ∧
      callsOf deps params router = [⟨op, payloadOf params, callDeadlineMs⟩]
  reached : ∀ op ∈ routed, ∀ arguments, isObject arguments = true → ∀ router,
    callsOf deps (toolCall (opToToolName op) arguments) router = [⟨op, arguments, callDeadlineMs⟩]

lemma opOf_some {name : JsString} {op : String} (h : deps.opOf name = some op) :
    ∃ tool, name = ofText tool ∧ deps.toolToOp.get? tool = some op := by
  obtain ⟨e, hfind, rfl⟩ := Option.map_eq_some_iff.mp h
  have hname : ofText e.1 = name := by simpa using List.find?_some hfind
  exact ⟨e.1, hname.symm, OrderedMap.get?_of_mem (List.mem_of_find?_eq_some hfind)⟩

lemma opOf_ofText (tool : String) : deps.opOf (ofText tool) = deps.toolToOp.get? tool := by
  have hkeys : (fun e : String × String => decide (ofText e.1 = ofText tool)) = fun e => decide (e.1 = tool) := by
    funext e
    simp [ofText_injective.eq_iff]
  rw [McpServerDeps.opOf, hkeys]
  rfl

lemma callsOf_eq (deps : McpServerDeps) (params : Value) (router : RootCall → Value) :
    callsOf deps params router = match chooseCall deps params with
      | .ok (.run call) => [call]
      | _ => [] := by
  unfold callsOf callTool
  cases hchoice : chooseCall deps params with
  | error err => rfl
  | ok choice =>
    cases choice with
    | refused result => rfl
    | run call => rfl

/-- A request that runs an op gives its name, and the payload. -/
lemma chooseCall_run {call : RootCall} (h : chooseCall deps params = .ok (.run call)) :
    ∃ name, optionalProperty params "name" = .string name ∧ deps.opOf name = some call.op ∧
      call = ⟨call.op, payloadOf params, callDeadlineMs⟩ := by
  have hparams : ∀ name, optionalProperty (if isObject params then params else .object []) name =
      optionalProperty params name := by
    intro name
    cases params <;> rfl
  have hpayload : (if (optionalProperty params "arguments").isUndefined then .object []
      else optionalProperty params "arguments") = payloadOf params := rfl
  unfold chooseCall at h
  dsimp only at h
  rw [hparams, hparams, hpayload] at h
  split at h
  · next name hname =>
    split_ifs at h with harguments
    · cases h
    · cases hop : deps.opOf name with
      | none => rw [hop] at h; cases h
      | some op =>
        rw [hop] at h
        dsimp only at h
        split_ifs at h
        · cases h
        · cases h
          exact ⟨name, hname, hop, rfl⟩
  · obtain ⟨text, _, h⟩ := bind_eq_ok h
    cases h

/-- Past the checks, a request for a tool runs its op. -/
lemma chooseCall_tool {tool op : String} {arguments : Value} (harguments : isObject arguments = true)
    (hop : deps.toolToOp.get? tool = some op) (hne : op ≠ "") :
    chooseCall deps (toolCall tool arguments) = .ok (.run ⟨op, arguments, callDeadlineMs⟩) := by
  have hname : optionalProperty (toolCall tool arguments) "name" = .string (ofText tool) := rfl
  have hgiven : optionalProperty (toolCall tool arguments) "arguments" = arguments := rfl
  have hdefined : arguments.isUndefined = false := by
    cases arguments with
    | undefined => cases harguments
    | _ => rfl
  have hobject : isObject (toolCall tool arguments) = true := rfl
  unfold chooseCall
  simp only [hobject, if_true, hname, hgiven, hdefined, harguments, opOf_ofText, hop, if_neg hne]
  rfl

section Injective

variable {recipeName bootSource : String} {opMeta : OrderedMap String SurfaceOpMeta}

lemma tools_keys (hrouted : routed.Nodup) (h : Set.InjOn opToToolName {op | op ∈ routed}) :
    (mcpDeps recipeName bootSource opMeta routed).toolToOp.entries = routed.map fun op => (opToToolName op, op) := by
  apply OrderedMap.ofEntries_entries
  rw [List.map_map]
  exact hrouted.map_on fun a ha b hb hab => h ha hb hab

lemma get?_tool {tool op : String} (h : (mcpDeps recipeName bootSource opMeta routed).toolToOp.get? tool = some op) :
    op ∈ routed ∧ opToToolName op = tool := by
  obtain ⟨found, hfound, heq⟩ := List.mem_map.mp (OrderedMap.mem_of_ofEntries h)
  cases heq
  exact ⟨hfound, rfl⟩

/-- A request makes no call, or one: that of the op behind the name, with the arguments as they are. -/
lemma called_exactly (params : Value) (router : RootCall → Value) :
    callsOf (mcpDeps recipeName bootSource opMeta routed) params router = [] ∨ ∃ op ∈ routed,
      optionalProperty params "name" = jsText (opToToolName op) ∧
        callsOf (mcpDeps recipeName bootSource opMeta routed) params router =
          [⟨op, payloadOf params, callDeadlineMs⟩] := by
  rw [callsOf_eq]
  split
  · next call hcall =>
    obtain ⟨name, hname, hop, heq⟩ := chooseCall_run hcall
    obtain ⟨tool, rfl, hget⟩ := opOf_some hop
    obtain ⟨hmem, rfl⟩ := get?_tool hget
    exact Or.inr ⟨call.op, hmem, hname, by rw [← heq]⟩
  · exact Or.inl rfl

theorem exact_iff (hrouted : routed.Nodup) (hnamed : ∀ op ∈ routed, op ≠ "") :
    Exact localeLe (mcpDeps recipeName bootSource opMeta routed) routed ↔
      Set.InjOn opToToolName {op | op ∈ routed} := by
  refine ⟨Exact.distinct, fun h => ⟨?_, h, called_exactly, fun op hop arguments harguments router => ?_⟩⟩
  · have hsorted := (List.mergeSort_perm (mcpDeps recipeName bootSource opMeta routed).toolToOp.entries
      fun a b => localeLe a.1 b.1).map fun e =>
        Tool.mk e.1 (toolDescription e.2 (opMeta.get? e.2)) (genericInputDescription e.2)
    refine hsorted.trans (List.Perm.of_eq ?_)
    rw [tools_keys hrouted h, List.map_map]
    rfl
  · have hmem : (opToToolName op, op) ∈ (mcpDeps recipeName bootSource opMeta routed).toolToOp.entries := by
      rw [tools_keys hrouted h]
      exact List.mem_map.mpr ⟨op, hop, rfl⟩
    rw [callsOf_eq, chooseCall_tool harguments (OrderedMap.get?_of_mem hmem) (hnamed op hop)]

end Injective

end Exactness

section Booted

variable {r : Recipe} {entries : List CompositionEntry} {verified : OrderedMap String Manifest}
  {opRoute : OrderedMap String String} {signer : Signer} {k : Kernel} {regs : List Registration}

/-- The ops that the booted router says are routed. -/
def routedOps (k : Kernel) (manifests : String → PluginManifest) (regs : List Registration) : List String :=
  (kernelRoutes k manifests regs).opRoute.keys

lemma mem_routedOps (hkernel : bootstrapKernel signer = .ok k) (hregs : ∀ e, e ∈ registered regs ↔ e ∈ entries)
    (manifests : String → PluginManifest) (op : String) :
    op ∈ routedOps k manifests regs ↔ ∃ e ∈ entries, op ∈ e.grant.contracts := by
  have henrolled := ((enlisted_start manifests hkernel).addAll regs).routes
  have hkeys : op ∈ routedOps k manifests regs ↔ ((kernelRoutes k manifests regs).opRoute.get? op).isSome = true :=
    (OrderedMap.get?_isSome _ _).symm
  rw [hkeys]
  constructor
  · intro hsome
    obtain ⟨id, hid⟩ := Option.isSome_iff_exists.mp hsome
    obtain ⟨e, he, _, hop⟩ := henrolled.routes op id hid
    exact ⟨e, (hregs e).mp he, hop⟩
  · rintro ⟨e, he, hop⟩
    exact henrolled.routed op e.id ⟨e, (hregs e).mpr he, rfl, hop⟩

lemma accepted_named (haccepted : buildRoutingTable r verified = .ok ⟨opRoute, []⟩)
    (hread : List.Forall₂ Reads r.composition entries) {e : CompositionEntry} (he : e ∈ entries) {op : String}
    (hop : op ∈ e.grant.contracts) : op ≠ "" := by
  obtain ⟨recipeEntry, hmem, hreads⟩ := forall₂_mem hread.flip he
  have hdeclared : jsText op ∈ recipeEntry.contracts := by
    rw [hreads.contracts]
    exact List.mem_map_of_mem hop
  obtain ⟨found, hversioned, hstring⟩ := (buildRoutingTable_clean haccepted rfl).2 recipeEntry hmem _ hdeclared
  rw [stringOf_jsText] at hstring
  rintro rfl
  cases hstring
  cases hversioned

/-- The tools are exact where no two routed ops have one name. -/
theorem tools_exact_iff (haccepted : buildRoutingTable r verified = .ok ⟨opRoute, []⟩)
    (hread : List.Forall₂ Reads r.composition entries) (hkernel : bootstrapKernel signer = .ok k)
    (hregs : ∀ e, e ∈ registered regs ↔ e ∈ entries) (manifests : String → PluginManifest)
    (localeLe : String → String → Bool) (recipeName bootSource : String) (opMeta : OrderedMap String SurfaceOpMeta) :
    Exact localeLe (mcpDeps recipeName bootSource opMeta (routedOps k manifests regs)) (routedOps k manifests regs) ↔
      ∀ e ∈ entries, ∀ f ∈ entries, ∀ a ∈ e.grant.contracts, ∀ b ∈ f.grant.contracts,
        opToToolName a = opToToolName b → a = b := by
  have hmem := mem_routedOps hkernel hregs manifests
  have hnamed : ∀ op ∈ routedOps k manifests regs, op ≠ "" := by
    intro op hop
    obtain ⟨e, he, hgranted⟩ := (hmem op).mp hop
    exact accepted_named haccepted hread he hgranted
  have honce : (routedOps k manifests regs).Nodup := OrderedMap.nodup _
  rw [exact_iff honce hnamed]
  constructor
  · intro h e he f hf a ha b hb hab
    exact h ((hmem a).mpr ⟨e, he, ha⟩) ((hmem b).mpr ⟨f, hf, hb⟩) hab
  · intro h a ha b hb hab
    obtain ⟨e, he, hae⟩ := (hmem a).mp ha
    obtain ⟨f, hf, hbf⟩ := (hmem b).mp hb
    exact h e he f hf a hae b hbf hab

section Samples

def declaring (id op : String) : Manifest :=
  ⟨id, "index.ts", .object (defaults [(ofText "contributions", .object [(ofText "contract",
    .array [.object [(ofText "id", jsText op), (ofText "version", jsText "1")]])])])⟩

def noteManifests : OrderedMap String Manifest :=
  .ofEntries [("vivim.law", lawManifest), ("dots", declaring "dots" "note.add"), ("lines", declaring "lines" "note_add")]

def colliding : List (String × String) := [("dots", "note.add@1"), ("lines", "note_add@1")]

lemma colliding_named : ∀ p ∈ colliding, p.1 ≠ "" := by decide

def dotted : List (String × String) := [("dots", "note.add@1")]

lemma dotted_named : ∀ p ∈ dotted, p.1 ≠ "" := by decide

lemma exists_accepted {granted : List (String × String)} (h : ∀ p ∈ granted, p.1 ≠ "")
    (hrun : (buildRoutingTable (notesRecipe granted h) noteManifests).toOption.map RoutingTable.errors = some []) :
    ∃ opRoute, buildRoutingTable (notesRecipe granted h) noteManifests = .ok ⟨opRoute, []⟩ := by
  obtain ⟨⟨opRoute, _⟩, htable, rfl⟩ := ok_of_toOption hrun
  exact ⟨opRoute, htable⟩

end Samples

theorem tools_collide : ∃ (r : Recipe) (entries : List CompositionEntry) (opRoute : OrderedMap String String)
    (k : Kernel) (regs : List Registration), buildRoutingTable r noteManifests = .ok ⟨opRoute, []⟩ ∧
      verifyCompositionInvariants r = [] ∧ List.Forall₂ Reads r.composition entries ∧
        bootstrapKernel namingSigner = .ok k ∧ (∀ e, e ∈ registered regs ↔ e ∈ entries) ∧
          ∀ manifests localeLe, ¬ Exact localeLe (mcpDeps "notes" "incoming" .empty (routedOps k manifests regs))
            (routedOps k manifests regs) := by
  obtain ⟨opRoute, haccepted⟩ := exists_accepted colliding_named (by decide +kernel)
  obtain ⟨k, hk⟩ := namingSigner_boots
  have hregs : ∀ e, e ∈ registered (registrations (notesEntries colliding)) ↔ e ∈ notesEntries colliding := by
    intro e
    rw [registered_registrations]
  refine ⟨_, notesEntries colliding, opRoute, k, _, haccepted, by decide, reads_notesRecipe _ _, hk, hregs,
    fun manifests localeLe hexact => ?_⟩
  have hdots := (mem_routedOps hk hregs manifests "note.add@1").mpr
    ⟨notesEntry "dots" "note.add@1", by simp [colliding, notesEntries], by simp [notesEntry]⟩
  have hlines := (mem_routedOps hk hregs manifests "note_add@1").mpr
    ⟨notesEntry "lines" "note_add@1", by simp [colliding, notesEntries], by simp [notesEntry]⟩
  exact absurd (hexact.distinct hdots hlines (by decide +kernel)) (by decide)

theorem tools_exact_notes : ∃ k, bootstrapKernel namingSigner = .ok k ∧ ∀ manifests localeLe,
    Exact localeLe
      (mcpDeps "notes" "incoming" .empty (routedOps k manifests (registrations (notesEntries dotted))))
      (routedOps k manifests (registrations (notesEntries dotted))) := by
  obtain ⟨opRoute, haccepted⟩ := exists_accepted dotted_named (by decide)
  obtain ⟨k, hk⟩ := namingSigner_boots
  have hregs : ∀ e, e ∈ registered (registrations (notesEntries dotted)) ↔ e ∈ notesEntries dotted := by
    intro e
    rw [registered_registrations]
  have hops : ∀ e ∈ notesEntries dotted, ∀ op ∈ e.grant.contracts, op = "note.add@1" := by
    simp [dotted, notesEntries, notesLaw, notesEntry]
  refine ⟨k, hk, fun manifests localeLe => ?_⟩
  refine (tools_exact_iff haccepted (reads_notesRecipe _ _) hk hregs manifests localeLe "notes" "incoming" .empty).mpr ?_
  intro e he f hf a ha b hb _
  rw [hops e he a ha, hops f hf b hb]

end Booted

end VivimOmega.Mcp

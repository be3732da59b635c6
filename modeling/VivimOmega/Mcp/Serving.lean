import VivimOmega.Library.Framing
import VivimOmega.Mcp.Tools

/-! The stdio server: the lines of `stdin` are handled one after the other, until `stdin` ends and the process exits. -/

namespace VivimOmega.Mcp

open Library Library.Json Library.Utf8 Library.Json.Value

section Handling

inductive Reply
  | result (value : Value)
  | error (code : ℤ) (message : JsString)

structure JsonRpcResponse where
  id : Value
  reply : Reply

def protocolVersion : String := "2025-06-18"

def initialized (deps : McpServerDeps) : Value :=
  .object [(ofText "protocolVersion", jsText protocolVersion),
    (ofText "capabilities", .object [(ofText "tools", .object [(ofText "listChanged", .bool false)])]),
    (ofText "serverInfo", .object [(ofText "name", jsText "vivim-mcp"), (ofText "version", jsText "0.1.0")]),
    (ofText "instructions", jsText ("VIVIM Ω6 MCP surface. Tools are generated from the booted composition '" ++
      deps.recipeName ++ "' routed ops (boot source: " ++ deps.bootSource ++
      "). Nothing outside the composition's grants is callable through this server."))]

def Tool.value (tool : Tool) : Value :=
  .object [(ofText "name", jsText tool.name), (ofText "description", jsText tool.description),
    (ofText "inputSchema", .object [(ofText "type", jsText "object"), (ofText "properties", .object []),
      (ofText "additionalProperties", .bool true), (ofText "description", jsText tool.inputDescription)])]

def ToolResult.value (r : ToolResult) : Value :=
  .object [(ofText "content", .array [.object [(ofText "type", jsText "text"), (ofText "text", jsText r.text)]]),
    (ofText "isError", .bool r.isError)]

/-- `notifications/…`, which also the two named notifications are. -/
def isNotice (method : JsString) : Bool := (ofText "notifications/").isPrefixOf method

def dispatch (localeLe : String → String → Bool) (deps : McpServerDeps) (msg : Value) (method : JsString) :
    Throwing RootCall (fun _ => Value) (Option Reply) :=
  if method = ofText "initialize" then return some (.result (initialized deps))
  else if method = ofText "ping" then return some (.result (.object []))
  else if method = ofText "tools/list" then
    return some (.result (.object [(ofText "tools", .array ((buildTools localeLe deps).map Tool.value))]))
  else if method = ofText "tools/call" then do
    let r ← callTool deps (optionalProperty msg "params")
    return some (.result r.value)
  else if isNotice method then return none
  else return some (.error (-32601) (ofText "method not found: " ++ method))

def idOf (msg : Value) : Value :=
  match optionalProperty msg "id" with
  | .undefined => .null
  | id => id

def isNullish : Value → Bool
  | .undefined => true
  | .null => true
  | _ => false

/-- What is written in answer to a line. The words of a `SyntaxError` are the engine's. -/
def handleLine (syntaxError : List Char → String) (localeLe : String → String → Bool) (deps : McpServerDeps)
    (line : List Char) : Process RootCall (fun _ => Value) (Option JsonRpcResponse) :=
  match parse line with
  | none => .done (some ⟨.null, .error (-32700) (ofText ("parse error: " ++ syntaxError line))⟩)
  | some msg =>
    match isObject msg, optionalProperty msg "method" with
    | true, .string method =>
      (dispatch localeLe deps msg method).run.bind fun r =>
        let resp := match r with
          | .ok reply => reply.map fun reply => ⟨idOf msg, reply⟩
          | .error e => some ⟨idOf msg, .error (-32603) (ofText ("internal error: " ++ e))⟩
        .done (if isNullish (optionalProperty msg "id") then none else resp)
    | _, _ => .done (some ⟨.null, .error (-32600) (ofText "invalid request: expected \x7bjsonrpc, method, params?\x7d")⟩)

end Handling

section Serving

/-- A line whose handler awaits the router. -/
structure Awaiting where
  line : List Char
  call : RootCall
  next : Value → Process RootCall (fun _ => Value) (Option JsonRpcResponse)

structure Server where
  decoder : Option Partial
  buf : List Char
  current : Option Awaiting
  queue : List (List Char)
  written : List JsonRpcResponse
  exiting : Bool
  exited : Bool

def Server.init : Server := ⟨none, [], none, [], [], false, false⟩

/-- What a handler does until it awaits the router, and which lines are still queued by then. -/
def drain (handle : List Char → Process RootCall (fun _ => Value) (Option JsonRpcResponse)) :
    List (List Char) → List JsonRpcResponse × Option Awaiting × List (List Char)
  | [] => ([], none, [])
  | line :: rest =>
    match handle line with
    | .done resp => (resp.toList ++ (drain handle rest).1, (drain handle rest).2)
    | .ask call next => ([], some ⟨line, call, next⟩, rest)

def Server.drained (handle : List Char → Process RootCall (fun _ => Value) (Option JsonRpcResponse)) (s : Server)
    (resp : Option JsonRpcResponse) (lines : List (List Char)) : Server :=
  { s with
    written := s.written ++ resp.toList ++ (drain handle lines).1
    current := (drain handle lines).2.1
    queue := (drain handle lines).2.2 }

inductive Event
  | data (chunk : List UInt8)
  | settled (r : Value)
  | ended
  | exited

/-- The lines that a text ends, as they are queued. -/
def queued (lines : List (List Char)) : List (List Char) := (lines.map trim).filter (· ≠ [])

def Server.react (handle : List Char → Process RootCall (fun _ => Value) (Option JsonRpcResponse)) (s : Server) :
    Event → Option Server
  | .data chunk =>
    if s.exiting then none
    else
      let text := feed s.decoder chunk
      let lines := cutLines (s.buf ++ text.1)
      let s := { s with decoder := text.2, buf := lines.2 }
      match s.current with
      | none => some (s.drained handle none (queued lines.1))
      | some _ => some { s with queue := s.queue ++ queued lines.1 }
  | .settled r =>
    match s.current with
    | none => none
    | some waiting =>
      match waiting.next r with
      | .done resp => some (s.drained handle resp s.queue)
      | .ask call next => some { s with current := some ⟨waiting.line, call, next⟩ }
  | .ended => some { s with exiting := true }
  | .exited => if s.exiting then some { s with exited := true } else none

/-- A booted server. Its calls of the router settle when they do, and so does the shutdown of its host. -/
def servers (handle : List Char → Process RootCall (fun _ => Value) (Option JsonRpcResponse)) : System Server Event where
  init s := s = .init
  step s e := if s.exited then none else s.react handle e

/-- The lines that have come in. -/
def linesRead (steps : List (Server × Event × Server)) : List (List Char) :=
  queued (cutLines (feed none (steps.flatMap fun x => match x.2.1 with
    | .data chunk => chunk
    | _ => [])).1).1

/-- The lines that have still to be answered, or passed over. -/
def Server.waiting (s : Server) : List (List Char) := (s.current.map Awaiting.line).toList ++ s.queue

end Serving

section Law

/-- A request with an id: what is to be answered with that id. -/
def Requests (line : List Char) (id : Value) : Prop :=
  ∃ msg method, parse line = some msg ∧ isObject msg = true ∧ optionalProperty msg "method" = .string method ∧
    isNotice method = false ∧ optionalProperty msg "id" = id ∧ isNullish id = false

/-- A message without an id, or a notice. -/
def Notifies (line : List Char) : Prop :=
  ∃ msg method, parse line = some msg ∧ isObject msg = true ∧ optionalProperty msg "method" = .string method ∧
    (isNullish (optionalProperty msg "id") = true ∨ isNotice method = true)

/-- The id that a line is answered with: none for a notification, and `null` for what is no message. -/
def answerId (line : List Char) : Option Value :=
  match parse line with
  | none => some .null
  | some msg =>
    match isObject msg, optionalProperty msg "method" with
    | true, .string method =>
      if isNullish (optionalProperty msg "id") || isNotice method then none else some (optionalProperty msg "id")
    | _, _ => some .null

/-- The id of a request that has one. -/
def requestId (line : List Char) : Option Value := (answerId line).filter fun id => !isNullish id

lemma Requests.requestId {line : List Char} {id : Value} (h : Requests line id) : requestId line = some id := by
  obtain ⟨msg, method, hparse, hobject, hmethod, hnotice, rfl, hid⟩ := h
  simp only [Mcp.requestId, answerId, hparse, hobject, hmethod, hnotice, hid, Bool.or_self, Bool.false_eq_true, if_false,
    Option.filter_some, Bool.not_false, if_true]

lemma requests_of_requestId {line : List Char} {id : Value} (h : requestId line = some id) : Requests line id := by
  unfold requestId at h
  obtain ⟨hanswer, hid⟩ := Option.filter_eq_some_iff.mp h
  have hnullish : isNullish id = false := by simpa using hid
  unfold answerId at hanswer
  split at hanswer
  · cases hanswer
    cases hnullish
  · next msg hparse =>
    split at hanswer
    · next method hobject hmethod =>
      split_ifs at hanswer with hnone
      simp only [Bool.or_eq_true, not_or, Bool.not_eq_true] at hnone
      cases hanswer
      exact ⟨msg, method, hparse, hobject, hmethod, hnone.2, rfl, hnullish⟩
    · cases hanswer
      cases hnullish

lemma answerId_notifies {line : List Char} (h : Notifies line) : answerId line = none := by
  obtain ⟨msg, method, hparse, hobject, hmethod, hnone⟩ := h
  simp only [answerId, hparse, hobject, hmethod, Bool.or_eq_true, if_pos hnone]

end Law

section Answers

variable {syntaxError : List Char → String} {localeLe : String → String → Bool} {deps : McpServerDeps}
  {handle : List Char → Process RootCall (fun _ => Value) (Option JsonRpcResponse)}
  {steps : List (Server × Event × Server)} {s t : Server} {line : List Char} {lines : List (List Char)}

/-- A handler that, whatever the router tells it, ends with the answer that its line is to get. -/
def Answering (line : List Char) (p : Process RootCall (fun _ => Value) (Option JsonRpcResponse)) : Prop :=
  ∃ past, p.Meets (fun _ _ => True) (fun _ resp => resp.map JsonRpcResponse.id = answerId line) past

lemma callTool_meets (deps : McpServerDeps) (params : Value) {past : List ((_ : RootCall) × Value)} :
    (callTool deps params).run.Meets (fun _ _ => True) (fun _ _ => True) past := by
  apply Throwing.meets_lift
  · exact fun _ _ => trivial
  · intro choice _
    cases choice with
    | refused result => exact Throwing.meets_pure trivial
    | run call => exact Throwing.meets_ask trivial fun r => by cases toolResult deps call.op r <;> exact trivial

/-- A reply is none just for a notice. -/
lemma dispatch_meets (localeLe : String → String → Bool) (deps : McpServerDeps) (msg : Value) (method : JsString)
    (past : List ((_ : RootCall) × Value)) :
    (dispatch localeLe deps msg method).run.Meets (fun _ _ => True)
      (fun _ r => match r with
        | .ok reply => reply.isNone = isNotice method
        | .error _ => isNotice method = false) past := by
  unfold dispatch
  split_ifs with hinit hping hlist hcall hnotice
  · have hno : isNotice method = false := by rw [hinit]; decide
    exact Throwing.meets_pure hno.symm
  · have hno : isNotice method = false := by rw [hping]; decide
    exact Throwing.meets_pure hno.symm
  · have hno : isNotice method = false := by rw [hlist]; decide
    exact Throwing.meets_pure hno.symm
  · have hno : isNotice method = false := by rw [hcall]; decide
    exact Throwing.meets_bind (callTool_meets deps _) (fun _ _ _ => hno) fun _ _ _ => Throwing.meets_pure hno.symm
  · exact Throwing.meets_pure hnotice.symm
  · exact Throwing.meets_pure (by simp [hnotice])

lemma idOf_eq {msg : Value} (h : isNullish (optionalProperty msg "id") = false) : idOf msg = optionalProperty msg "id" := by
  unfold idOf
  cases hid : optionalProperty msg "id" with
  | undefined => rw [hid] at h; cases h
  | _ => rfl

lemma handleLine_answering (line : List Char) : Answering line (handleLine syntaxError localeLe deps line) := by
  refine ⟨[], ?_⟩
  unfold handleLine answerId
  cases parse line with
  | none => exact rfl
  | some msg =>
    dsimp only
    split
    · next method _ hmethod =>
      refine (dispatch_meets localeLe deps msg method []).bind fun _ r hr => ?_
      cases hid : isNullish (optionalProperty msg "id") with
      | true => exact rfl
      | false =>
        cases r with
        | error e =>
          have hnotice : isNotice method = false := hr
          rw [hnotice]
          exact congrArg some (idOf_eq hid)
        | ok reply =>
          cases reply with
          | none =>
            have hnotice : isNotice method = true := hr.symm
            rw [hnotice]
            exact rfl
          | some reply =>
            have hnotice : isNotice method = false := hr.symm
            rw [hnotice]
            exact congrArg some (idOf_eq hid)
    · exact rfl

/-- What is written answers the lines that are done with, in their order; the next line's handler will answer that one. -/
structure Answered (lines : List (List Char)) (s : Server) : Prop where
  done : ∃ done, lines = done ++ s.waiting ∧ s.written.map JsonRpcResponse.id = done.filterMap answerId
  current : ∀ w ∈ s.current, Answering w.line (.ask w.call w.next)
  idle : s.current = none → s.queue = []

lemma drain_spec (hhandle : ∀ line, Answering line (handle line)) (lines : List (List Char)) :
    (∃ done, lines = done ++ ((drain handle lines).2.1.map Awaiting.line).toList ++ (drain handle lines).2.2 ∧
      (drain handle lines).1.map JsonRpcResponse.id = done.filterMap answerId) ∧
    (∀ w ∈ (drain handle lines).2.1, Answering w.line (.ask w.call w.next)) ∧
    ((drain handle lines).2.1 = none → (drain handle lines).2.2 = []) := by
  induction lines with
  | nil => exact ⟨⟨[], rfl, rfl⟩, by simp [drain], fun _ => rfl⟩
  | cons line rest ih =>
    obtain ⟨past, hline⟩ := hhandle line
    rw [drain]
    cases hstart : handle line with
    | done resp =>
      rw [hstart] at hline
      obtain ⟨⟨done, hdone, hwritten⟩, hcurrent, hidle⟩ := ih
      refine ⟨⟨line :: done, by rw [List.cons_append, List.cons_append, ← hdone], ?_⟩, hcurrent, hidle⟩
      have hid : resp.map JsonRpcResponse.id = answerId line := hline
      rw [List.map_append, hwritten, List.filterMap_cons, ← hid]
      cases resp <;> rfl
    | ask call next =>
      rw [hstart] at hline
      refine ⟨⟨[], rfl, rfl⟩, ?_, by simp⟩
      rintro w ⟨rfl⟩
      exact ⟨past, hline⟩

lemma Answered.drained (hhandle : ∀ line, Answering line (handle line)) (done : List (List Char))
    {rest : List (List Char)} {resp : Option JsonRpcResponse} (hlines : lines = done ++ rest)
    (hwritten : s.written.map JsonRpcResponse.id ++ (resp.map JsonRpcResponse.id).toList = done.filterMap answerId) :
    Answered lines (s.drained handle resp rest) := by
  obtain ⟨⟨more, hmore, hanswers⟩, hcurrent, hidle⟩ := drain_spec hhandle rest
  refine ⟨⟨done ++ more, ?_, ?_⟩, hcurrent, hidle⟩
  · rw [hlines, List.append_assoc done]
    refine congrArg (done ++ ·) ?_
    rw [Server.waiting, ← List.append_assoc]
    exact hmore
  · have hresp : resp.toList.map JsonRpcResponse.id = (resp.map JsonRpcResponse.id).toList := by
      cases resp <;> rfl
    rw [Server.drained, List.map_append, List.map_append, hresp, hwritten, hanswers, List.filterMap_append]

lemma Answered.settled (hhandle : ∀ line, Answering line (handle line)) (h : Answered lines s) {r : Value}
    (hstep : s.react handle (.settled r) = some t) : Answered lines t := by
  obtain ⟨⟨done, hdone, hwritten⟩, hcurrent, hidle⟩ := h
  unfold Server.react at hstep
  dsimp only at hstep
  cases hwaiting : s.current with
  | none => rw [hwaiting] at hstep; cases hstep
  | some w =>
    rw [hwaiting] at hstep
    obtain ⟨past, _, hnext⟩ := hcurrent w hwaiting
    have hr := hnext r
    dsimp only at hstep
    cases hend : w.next r with
    | done resp =>
      rw [hend] at hstep hr
      cases hstep
      have hid : resp.map JsonRpcResponse.id = answerId w.line := hr
      refine Answered.drained hhandle (done ++ [w.line]) ?_ ?_
      · rw [hdone, Server.waiting, hwaiting, List.append_assoc]
        rfl
      · rw [hwritten, hid, List.filterMap_append]
        cases hanswer : answerId w.line <;> simp [hanswer]
    | ask call next =>
      rw [hend] at hstep hr
      cases hstep
      refine ⟨⟨done, ?_, hwritten⟩, ?_, by simp⟩
      · rw [hdone, Server.waiting, hwaiting]
        rfl
      · rintro v ⟨rfl⟩
        exact ⟨_, hr⟩

/-- The state of the reader: what is open of a character, and of a line. -/
def Reads (bytes : List UInt8) (s : Server) : Prop :=
  s.decoder = (feed none bytes).2 ∧ s.buf = (cutLines (feed none bytes).1).2

lemma queued_append (bytes chunk : List UInt8) (hreads : Reads bytes s) :
    queued (cutLines (feed none (bytes ++ chunk)).1).1 =
        queued (cutLines (feed none bytes).1).1 ++ queued (cutLines (s.buf ++ (feed s.decoder chunk).1)).1 ∧
      Reads (bytes ++ chunk) { s with
        decoder := (feed s.decoder chunk).2
        buf := (cutLines (s.buf ++ (feed s.decoder chunk).1)).2 } := by
  obtain ⟨hdecoder, hbuf⟩ := hreads
  have hcut := cutLines_append (feed none bytes).1 (feed (feed none bytes).2 chunk).1
  rw [hdecoder, hbuf, feed_append, Reads, feed_append, hcut]
  exact ⟨by rw [queued, List.map_append, List.filter_append]; rfl, rfl, rfl⟩

lemma Answered.data (hhandle : ∀ line, Answering line (handle line)) {bytes chunk : List UInt8}
    (h : Answered (queued (cutLines (feed none bytes).1).1) s) (hreads : Reads bytes s)
    (hstep : s.react handle (.data chunk) = some t) :
    Answered (queued (cutLines (feed none (bytes ++ chunk)).1).1) t ∧ Reads (bytes ++ chunk) t := by
  obtain ⟨hlines, hnext⟩ := queued_append bytes chunk hreads
  obtain ⟨⟨done, hdone, hwritten⟩, hcurrent, hidle⟩ := h
  unfold Server.react at hstep
  dsimp only at hstep
  split_ifs at hstep
  rw [hlines]
  cases hwaiting : s.current with
  | none =>
    rw [hwaiting] at hstep
    cases hstep
    refine ⟨Answered.drained hhandle done ?_ ?_, hnext⟩
    · rw [hdone, Server.waiting, hwaiting, hidle hwaiting]
      simp only [Option.map_none, Option.toList_none, List.append_nil]
    · simp only [hwritten, Option.map_none, Option.toList_none, List.append_nil]
  | some w =>
    rw [hwaiting] at hstep
    cases hstep
    refine ⟨⟨⟨done, ?_, hwritten⟩, ?_, by simp [hwaiting]⟩, hnext⟩
    · rw [hdone, Server.waiting, Server.waiting]
      simp only [hwaiting, List.append_assoc]
    · rw [hwaiting] at hcurrent
      exact hcurrent

lemma run_answered (hhandle : ∀ line, Answering line (handle line)) (h : (servers handle).Run steps s) :
    Answered (linesRead steps) s ∧ Reads (steps.flatMap fun x => match x.2.1 with
      | .data chunk => chunk
      | _ => []) s := by
  induction h with
  | start hinit =>
    obtain rfl := hinit
    exact ⟨⟨⟨[], rfl, rfl⟩, by simp [Server.init], fun _ => rfl⟩, rfl, rfl⟩
  | @next steps s e t hrun hstep ih =>
    obtain ⟨hanswered, hreads⟩ := ih
    have hlive : s.react handle e = some t := by
      simp only [servers] at hstep
      split_ifs at hstep
      exact hstep
    rw [linesRead, List.flatMap_append, List.flatMap_singleton]
    cases e with
    | data chunk => exact hanswered.data hhandle hreads hlive
    | settled r =>
      rw [List.append_nil]
      refine ⟨hanswered.settled hhandle hlive, ?_⟩
      unfold Server.react at hlive
      dsimp only at hlive
      split at hlive
      · cases hlive
      · split at hlive <;> cases hlive <;> exact hreads
    | ended =>
      rw [List.append_nil]
      cases hlive
      exact ⟨⟨hanswered.done, hanswered.current, hanswered.idle⟩, hreads⟩
    | exited =>
      rw [List.append_nil]
      simp only [Server.react] at hlive
      split_ifs at hlive
      cases hlive
      exact ⟨⟨hanswered.done, hanswered.current, hanswered.idle⟩, hreads⟩

lemma filterMap_requestId (lines : List (List Char)) :
    (lines.filterMap answerId).filter (fun id => !isNullish id) = lines.filterMap requestId := by
  rw [List.filter_filterMap]
  rfl

end Answers

section Samples

def echoDeps : McpServerDeps := ⟨"echo", "fresh", .empty, .ofEntries [("echo_ping_1", "echo.ping@1")]⟩

def echoServers : System Server Event := servers (handleLine (fun _ => "SyntaxError") (fun _ _ => true) echoDeps)

def pingLine : List UInt8 := encode "\x7b\"id\":1,\"method\":\"ping\"\x7d\n".toList

def echoLine : List UInt8 := encode "\x7b\"id\":1,\"method\":\"tools/call\",\"params\":\x7b\"name\":\"echo_ping_1\"\x7d\x7d\n".toList

end Samples

end VivimOmega.Mcp

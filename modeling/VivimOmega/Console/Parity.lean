import VivimOmega.Console.Resolutions
import VivimOmega.Host.Routing

/-! The console's own gate beside the gate of the router. -/

namespace VivimOmega.Console

open Library Library.Json Law Host Contracts

section Gates

variable (S : Routes) (catalog : Value) (consents : ConsentTable) (forbidden : ForbiddenTable)

/-- The router would ask the law about what a root call of `op` runs, and be refused so. -/
def HostRefuses (op : String) (decision : Value) : Prop :=
  ∃ target, S.resolveTarget "root" op = some target ∧ (S.opRisk.get? target.op).isSome = true ∧
    gateDecision consents forbidden rootPrincipal (ofText target.op) = .ok decision

/-- The world has the op catalog of the composition, and the law decides by its state. -/
def Consistent (l : Trace) : Prop :=
  ∀ x ∈ l, ∀ v, x.2.answer = .ok v → match x.1 with
    | .snapshot => ∃ w, property v "world" = .ok w ∧ property w "ops" = .ok catalog
    | .gate op _ _ _ => ∃ decision, property v "decision" = .ok decision ∧
      gateDecision consents forbidden rootPrincipal (ofText op) = .ok decision
    | _ => True

/-- The catalog has the console ask the law about the op. -/
def PreGated (op : String) : Prop := ∃ risk, riskIn catalog op = .ok risk ∧ preGate risk = true

/-- What the console refuses at its own gate, the router would refuse at its gate, by the same decision. -/
def Parity : Prop :=
  ∀ language text l result consents forbidden, (execute language text).run.After l (.done result) →
    Consistent catalog consents forbidden l → ∀ op payload intentRef payloadHash reply v,
      ⟨.gate op payload intentRef payloadHash, reply⟩ ∈ l → reply.answer = .ok v →
        refuses (optionalProperty v "decision") = true → op ≠ "" → (S.resolveTarget "root" op).isSome = true →
          HostRefuses S consents forbidden op (optionalProperty v "decision")

end Gates

section Asking

variable {past : Trace} {out : ExecuteOutcome} {language : Language} {text : JsString} {interp : Interpretation}
  {ir : IR} {w : Value}

/-- A world that the trace has seen. -/
def Seen (l : Trace) (w : Value) : Prop :=
  ∃ reply v, ⟨.snapshot, reply⟩ ∈ l ∧ reply.answer = .ok v ∧ property v "world" = .ok w

lemma Seen.append {l : Trace} (h : Seen l w) (more : Trace) : Seen (l ++ more) w := by
  obtain ⟨reply, v, hmem, hok, hworld⟩ := h
  exact ⟨reply, v, List.mem_append_left more hmem, hok, hworld⟩

/-- The law is asked about ops of the surface alone never, and only where the catalog of a world has it asked. -/
def GateAsked (l : Trace) : ConsoleCall → Prop
  | .gate op _ _ _ => Text.startsWith op "surface." = false ∧
    ∃ w risk, Seen l w ∧ catalogRisk w op = .ok risk ∧ preGate risk = true
  | _ => True

/-- A program that asks the law so, and keeps what was seen. -/
abbrev Asks (w : Value) (past : Trace) (p : ConsoleM α) : Prop :=
  p.run.Meets GateAsked (fun l _ => Seen l w) past

lemma world_asks (past : Trace) :
    world.run.Meets GateAsked (fun l r => ∀ w, r = .ok w → Seen l w) past := by
  refine Throwing.meets_ask trivial fun reply => ?_
  cases hanswer : reply.answer with
  | failed error detail =>
    rintro w hw
    cases hw
  | ok v =>
    dsimp only
    cases hworld : property v "world" with
    | error e =>
      rintro w hw
      cases hw
    | ok found =>
      rintro w hw
      cases hw
      exact ⟨reply, v, List.mem_append_right past (List.mem_singleton_self _), hanswer, hworld⟩

lemma recordResolution_asks (h : Seen past w) (resolution : Resolution) (row : List (String × Value)) :
    Asks w past (recordResolution resolution row) :=
  Throwing.meets_ask trivial fun _ => h.append _

lemma serveSurface_asks (h : Seen past w) (world : Value) : Asks w past (serveSurface language text interp world out) := by
  have hambiguous : Asks w past (recordAmbiguous text interp out) := by
    unfold recordAmbiguous
    split_ifs
    · exact Throwing.meets_bind (recordResolution_asks h _ _) (fun _ _ hl => hl) fun _ _ hl => Throwing.meets_pure hl
    · exact Throwing.meets_pure h
  refine Throwing.meets_bind hambiguous (fun _ _ hl => hl) fun l o hl => ?_
  exact Throwing.meets_lift (fun _ _ => hl) fun _ _ => Throwing.meets_pure hl

lemma submitIntent_asks (h : Seen past w) : Asks w past (submitIntent text interp ir out) := by
  refine Throwing.meets_ask trivial fun reply => ?_
  cases reply.answer with
  | failed error detail => exact h.append _
  | ok value =>
    dsimp only
    cases submitted value <;> exact h.append _

lemma checkRuleAction_asks (h : Seen past w) : Asks w past (checkRuleAction ir out) := by
  unfold checkRuleAction
  split_ifs
  · refine Throwing.meets_ask trivial fun reply => ?_
    cases reply.answer with
    | failed error detail => exact h.append _
    | ok d => exact Throwing.meets_lift (fun _ _ => h.append _) fun _ _ => Throwing.meets_pure (h.append _)
  · exact Throwing.meets_pure h

lemma route_asks (h : Seen past w) : Asks w past (route text ir out) := by
  refine Throwing.meets_ask trivial fun reply => ?_
  cases out.intentRef with
  | none => exact Throwing.meets_pure (h.append _)
  | some intentRef =>
    exact Throwing.meets_bind (recordResolution_asks (h.append _) _ _) (fun _ _ hl => hl) fun _ _ hl =>
      Throwing.meets_pure hl

lemma gateAndRoute_asks (h : Seen past w) (hsurface : Text.startsWith ir.intent "surface." = false) :
    Asks w past (gateAndRoute text ir w out) := by
  refine Throwing.meets_lift (fun _ _ => h) fun risk hrisk => ?_
  cases out.intentRef with
  | none => exact route_asks h
  | some intentRef =>
    dsimp only
    split_ifs with hgated
    · refine Throwing.meets_ask ⟨hsurface, w, risk, h, hrisk, hgated⟩ fun reply => ?_
      cases reply.answer with
      | failed error detail => exact route_asks (h.append _)
      | ok d =>
        refine Throwing.meets_lift (fun _ _ => h.append _) fun decision _ => ?_
        split_ifs
        · exact Throwing.meets_bind (recordResolution_asks (h.append _) _ _) (fun _ _ hl => hl) fun _ _ hl =>
            Throwing.meets_pure hl
        · exact route_asks (h.append _)
    · exact route_asks h

lemma execute_asks (language : Language) (text : JsString) :
    (execute language text).run.Meets GateAsked (fun _ _ => True) [] := by
  refine Throwing.meets_bind (world_asks []) (fun _ _ _ => trivial) fun l seen _ => ?_
  refine Throwing.meets_lift (fun _ _ => trivial) fun interp _ => ?_
  refine Throwing.meets_bind (world_asks l) (fun _ _ _ => trivial) fun l w hseen => ?_
  refine Throwing.meets_lift (fun _ _ => trivial) fun v _ => ?_
  have hw := hseen w rfl
  dsimp only
  cases interp.ir with
  | none => exact (serveSurface_asks hw w).mono fun _ _ _ => trivial
  | some ir =>
    dsimp only
    cases hsurface : Text.startsWith ir.intent "surface." with
    | true => exact (serveSurface_asks hw w).mono fun _ _ _ => trivial
    | false =>
      refine Throwing.meets_bind (submitIntent_asks hw) (fun _ _ _ => trivial) fun l out hl => ?_
      refine Throwing.meets_bind (checkRuleAction_asks hl) (fun _ _ _ => trivial) fun l out hl => ?_
      exact (gateAndRoute_asks hl hsurface).mono fun _ _ _ => trivial

/-- The law is only asked about what the catalog has it asked about. -/
lemma preGated_of_gate {l : Trace} {result : Except String ExecuteOutcome} {catalog : Value} {consents : ConsentTable}
    {forbidden : ForbiddenTable} (h : (execute language text).run.After l (.done result))
    (hl : Consistent catalog consents forbidden l) {op : String} {payload : Value} {intentRef : JsString}
    {payloadHash : Option JsString} {reply : Reply} (hgate : ⟨.gate op payload intentRef payloadHash, reply⟩ ∈ l) :
    Text.startsWith op "surface." = false ∧ PreGated catalog op := by
  obtain ⟨before, rest, hsplit⟩ := List.append_of_mem hgate
  obtain ⟨hsurface, w, risk, ⟨first, v, hmem, hok, hworld⟩, hrisk, hgated⟩ :=
    (execute_asks language text).asked h hsplit
  obtain ⟨w', hw', hops⟩ := hl _ (hsplit ▸ List.mem_append_left _ hmem) v hok
  obtain rfl : w' = w := Except.ok.inj (hw'.symm.trans hworld)
  rw [catalogRisk, hops] at hrisk
  exact ⟨hsurface, risk, hrisk, hgated⟩

end Asking

section Refusing

variable {catalog : Value} {forbidden : ForbiddenTable} {op : String}

lemma told_ok {Q α β : Type} {A : Q → Type} {answer : (q : Q) → A q} {x : Throwing Q A α} {k : α → Throwing Q A β}
    {l : List ((q : Q) × A q)} {a : α} (h : x.run.told answer = (l, .ok a)) :
    ((x >>= k).run.told answer).1 = l ++ ((k a).run.told answer).1 := by
  rw [Throwing.run_bind, Process.told_bind, h]

def opLanguage (op : String) : Language where
  interpret _ _ := .ok ⟨some ⟨op, .object []⟩, .null, .null, .null, .null⟩
  surfacePayload _ _ _ := .ok .null

def catalogWorld (catalog : Value) : Value := fields [("v", .null), ("ops", catalog)]

/-- The answers of a system whose law decides by its state. -/
def decidedReply (forbidden : ForbiddenTable) (op : String) : Reply :=
  match gateDecision .empty forbidden rootPrincipal (ofText op) with
  | .ok decision => okReply [("decision", decision)]
  | .error e => ⟨.failed e none, true, nofun⟩

def lawReply (catalog : Value) (forbidden : ForbiddenTable) : ConsoleCall → Reply
  | .snapshot => okReply [("world", catalogWorld catalog)]
  | .submit _ _ _ => okReply [("status", jsText "OK"), ("value", fields [("intentId", jsText "intent:1")])]
  | .gate op _ _ _ => decidedReply forbidden op
  | _ => okReply []

def decidedCommand (catalog : Value) (forbidden : ForbiddenTable) (op : String) : Trace × Except String ExecuteOutcome :=
  (execute (opLanguage op) []).run.told (lawReply catalog forbidden)

lemma property_head (name : String) (v : Value) (rest : List (String × Value)) :
    property (fields ((name, v) :: rest)) name = .ok v := by
  simp [fields, property, pure, Except.pure]

lemma property_next {name other : String} (h : ofText other ≠ ofText name) (v : Value) (rest : List (String × Value)) :
    property (fields ((other, v) :: rest)) name = property (fields rest) name := by
  simp [fields, property, h]

lemma told_world (catalog : Value) (forbidden : ForbiddenTable) :
    world.run.told (lawReply catalog forbidden) =
      ([⟨.snapshot, okReply [("world", catalogWorld catalog)]⟩], .ok (catalogWorld catalog)) := by
  have hworld := property_head "world" (catalogWorld catalog) []
  unfold world
  rw [Throwing.run_bind, Process.told_bind]
  change (_ ++ ((liftM (property (fields [("world", catalogWorld catalog)]) "world") : ConsoleM Value).run.told _).1,
    ((liftM (property (fields [("world", catalogWorld catalog)]) "world") : ConsoleM Value).run.told _).2) = _
  rw [hworld]
  rfl

lemma property_ops (catalog : Value) : property (catalogWorld catalog) "ops" = .ok catalog := by
  rw [catalogWorld, property_next (by decide)]
  exact property_head "ops" catalog []

lemma property_v (catalog : Value) : property (catalogWorld catalog) "v" = .ok .null := property_head "v" .null _

lemma told_checkRuleAction (catalog : Value) (forbidden : ForbiddenTable) (ir : IR) (out : ExecuteOutcome) :
    ∃ l out', (checkRuleAction ir out).run.told (lawReply catalog forbidden) = (l, .ok out') ∧ out'.intentRef = out.intentRef := by
  unfold checkRuleAction
  split_ifs
  · exact ⟨_, _, rfl, rfl⟩
  · exact ⟨_, _, rfl, rfl⟩

/-- A command for an op that the catalog has gated comes to the gate of the console. -/
lemma gate_mem_decided (forbidden : ForbiddenTable) (hsurface : Text.startsWith op "surface." = false) (hgated : PreGated catalog op) :
    ∃ payload intentRef payloadHash,
      ⟨.gate op payload intentRef payloadHash, decidedReply forbidden op⟩ ∈ (decidedCommand catalog forbidden op).1 := by
  obtain ⟨risk, hrisk, hgate⟩ := hgated
  have hcatalog : catalogRisk (catalogWorld catalog) op = .ok risk := by
    rw [catalogRisk, property_ops]
    exact hrisk
  unfold decidedCommand execute
  rw [told_ok (told_world catalog forbidden), told_ok (a := Interpretation.mk (some ⟨op, .object []⟩) .null .null .null .null) rfl,
    told_ok (told_world catalog forbidden), property_v, told_ok (a := Value.null) rfl]
  dsimp only
  rw [hsurface, if_neg Bool.false_ne_true]
  have hsubmit : ∀ interp out, ∃ l out', (submitIntent [] interp ⟨op, .object []⟩ out).run.told (lawReply catalog forbidden) =
      (l, .ok out') ∧ out'.intentRef = some (ofText "intent:1") := fun _ _ => ⟨_, _, rfl, rfl⟩
  obtain ⟨l, out, htold, hintent⟩ := hsubmit ⟨some ⟨op, .object []⟩, .null, .null, .null, .null⟩
    { interpretation := ⟨some ⟨op, .object []⟩, .null, .null, .null, .null⟩, worldV := .null }
  rw [told_ok htold]
  obtain ⟨l', out', htold', hintent'⟩ := told_checkRuleAction catalog forbidden ⟨op, .object []⟩ out
  rw [told_ok htold']
  unfold gateAndRoute
  rw [told_ok (a := risk) (by dsimp only; rw [hcatalog]; rfl)]
  rw [hintent', hintent]
  dsimp only
  rw [if_pos hgate]
  refine ⟨.object [], ofText "intent:1", out'.payloadHash, ?_⟩
  simp only [List.mem_append]
  exact Or.inr (Or.inr (Or.inr (Or.inr (Or.inr (Or.inr (Or.inr List.mem_cons_self))))))

lemma consistent_decided (catalog : Value) (forbidden : ForbiddenTable) (op : String) :
    Consistent catalog .empty forbidden (decidedCommand catalog forbidden op).1 := by
  rintro ⟨q, reply⟩ hx v hok
  obtain rfl : reply = lawReply catalog forbidden q := Process.mem_told hx
  cases q with
  | snapshot =>
    cases hok
    exact ⟨catalogWorld catalog, property_head _ _ _, property_ops catalog⟩
  | gate op payload intentRef payloadHash =>
    change (decidedReply forbidden op).answer = .ok v at hok
    unfold decidedReply at hok
    dsimp only
    cases hdecision : gateDecision .empty forbidden rootPrincipal (ofText op) with
    | error e =>
      rw [hdecision] at hok
      cases hok
    | ok decision =>
      rw [hdecision] at hok
      cases hok
      exact ⟨decision, property_head _ _ _, rfl⟩
  | _ => trivial

/-- A law that forbids the root just one op. -/
def forbiddenOp (op : JsString) (h : op ≠ []) : ForbiddenTable :=
  OrderedMap.empty.set rootPrincipal ⟨[op], one_listed h⟩

lemma isForbidden_forbiddenOp {op : JsString} (h : op ≠ []) (other : JsString) :
    (forbiddenOp op h).isForbidden rootPrincipal other = decide (other = op) := by
  rw [ForbiddenTable.isForbidden, forbiddenOp, OrderedMap.get?_set, if_pos rfl]
  simp

lemma gateDecision_forbiddenOp {op : JsString} (h : op ≠ []) (other : JsString) :
    gateDecision .empty (forbiddenOp op h) rootPrincipal other = .ok (jsText "deny") ↔ other = op := by
  have hroot : ofText "omega.attacker" ≠ rootPrincipal := by decide
  obtain ⟨action, haction, hundenied⟩ := evalPolicy_undenied hroot other
  rw [gateDecision_eq .empty _ haction, isForbidden_forbiddenOp, Except.ok.injEq]
  by_cases heq : other = op
  · exact iff_of_true (if_pos (decide_eq_true heq)) heq
  · rw [decide_eq_false heq, if_neg Bool.false_ne_true]
    refine iff_of_false (fun hdeny => ?_) heq
    have hsays := congrArg (fun v => isText v "deny") hdeny
    split_ifs at hsays with hask hgranted
    · exact absurd hsays (by decide)
    · exact absurd hsays (by decide)
    · rw [hundenied] at hsays
      exact absurd hsays (by decide)

/-- With parity, the router gates all that the catalog has gated, as what it is called. -/
lemma gated_of_parity {S : Routes} (h : Parity S catalog) {target : Routes.Target} (hop : op ≠ "")
    (hsurface : Text.startsWith op "surface." = false) (htarget : S.resolveTarget "root" op = some target)
    (hgated : PreGated catalog op) : target.op = op ∧ (S.opRisk.get? op).isSome = true := by
  have hne : ofText op ≠ [] := fun hnil => hop (ofText_injective hnil)
  obtain ⟨payload, intentRef, payloadHash, hmem⟩ := gate_mem_decided (forbiddenOp (ofText op) hne) hsurface hgated
  have hdeny := (gateDecision_forbiddenOp hne (ofText op)).mpr rfl
  have hreply : decidedReply (forbiddenOp (ofText op) hne) op = okReply [("decision", jsText "deny")] := by
    rw [decidedReply, hdeny]
  have hdecision : optionalProperty (fields [("decision", jsText "deny")]) "decision" = jsText "deny" := by
    rw [optionalProperty, property_head]
  rw [hreply] at hmem
  obtain ⟨target', htarget', hrisk, hsame⟩ := h (opLanguage op) [] _ _ .empty (forbiddenOp (ofText op) hne)
    (Process.after_told (lawReply catalog (forbiddenOp (ofText op) hne)) _) (consistent_decided catalog _ op) op payload
    intentRef payloadHash _ _ hmem rfl (by rw [hdecision]; decide) hop (by rw [htarget]; rfl)
  obtain rfl : target = target' := Option.some.inj (htarget.symm.trans htarget')
  rw [hdecision, gateDecision_forbiddenOp] at hsame
  have hsame' := ofText_injective hsame
  exact ⟨hsame', hsame' ▸ hrisk⟩

end Refusing

/-- What the console refuses at its own gate the router would refuse in the same way, in every state of the law, just
where the router has a risk for each op that the catalog has gated, and runs a root call of it as that op. -/
theorem parity_iff (S : Routes) (catalog : Value) :
    Parity S catalog ↔ ∀ op target, op ≠ "" → Text.startsWith op "surface." = false →
      S.resolveTarget "root" op = some target → PreGated catalog op →
        target.op = op ∧ (S.opRisk.get? op).isSome = true := by
  constructor
  · exact fun h op target hop hsurface htarget hgated => gated_of_parity h hop hsurface htarget hgated
  · intro h language text l result consents forbidden hafter hl op payload intentRef payloadHash reply v hmem hok _ hop
      hrouted
    obtain ⟨hsurface, hgated⟩ := preGated_of_gate hafter hl hmem
    obtain ⟨target, htarget⟩ := Option.isSome_iff_exists.mp hrouted
    obtain ⟨hsame, hrisk⟩ := h op target hop hsurface htarget hgated
    obtain ⟨decision, hdecision, hlaw⟩ := hl _ hmem v hok
    have hread : optionalProperty v "decision" = decision := by
      rw [optionalProperty, hdecision]
    refine ⟨target, htarget, hsame ▸ hrisk, ?_⟩
    rw [hsame, hread]
    exact hlaw

/-- An op without a risk that the catalog leaves out: the console asks the law about it, and the router does not. -/
theorem unlisted_refused : ∃ (k : Kernel) (manifests : String → PluginManifest) (regs : List Registration),
    bootstrapKernel namingSigner = .ok k ∧ ¬ Parity (kernelRoutes k manifests regs) (.array []) := by
  let regs := registrations (notesEntries [("notes", "add@1")])
  have hkernel : (bootstrapKernel namingSigner).toOption.map (fun k =>
      decide ((kernelRoutes k (fun _ => depending []) regs).resolveTarget "root" "add@1" = some ⟨"notes", "add@1"⟩) &&
        ((kernelRoutes k (fun _ => depending []) regs).opRisk.get? "add@1").isNone) = some true := by
    decide
  obtain ⟨k, hk, hroutes⟩ := ok_of_toOption hkernel
  simp only [Bool.and_eq_true, decide_eq_true_eq, Option.isNone_iff_eq_none] at hroutes
  refine ⟨k, fun _ => depending [], regs, hk, fun hparity => ?_⟩
  have hgated := gated_of_parity hparity (by decide) (by decide) hroutes.1 ⟨.undefined, rfl, rfl⟩
  rw [hroutes.2] at hgated
  cases hgated.2

end VivimOmega.Console

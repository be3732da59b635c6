import VivimOmega.Console.Execute

/-! The rows that a console command leaves, and whether its op was delivered. -/

namespace VivimOmega.Console

open Library Library.Json

abbrev Trace := List ((_ : ConsoleCall) × Reply)

section Law

def rowOf : ConsoleCall → Option Resolution
  | .record resolution _ => some resolution
  | _ => none

def isRouted : ConsoleCall → Bool
  | .routed _ _ => true
  | _ => false

/-- The rows that a command has had recorded. -/
def rows (l : Trace) : List Resolution := l.filterMap fun x => rowOf x.1

/-- The op of the command came to its implementation. -/
def Delivered (l : Trace) : Prop := ∃ x ∈ l, isRouted x.1 = true ∧ x.2.delivered = true

/-- At most one row; EXECUTED only for what was delivered; and what is resolved otherwise was not. -/
structure Lawful (l : Trace) (out : Except String ExecuteOutcome) : Prop where
  once : (rows l).length ≤ 1
  executed : .executed ∈ rows l → Delivered l
  kept : (∃ r ≠ .executed, r ∈ rows l ∨ ∃ o, out = .ok o ∧ o.resolution = some r) → ¬ Delivered l

/-- The submit was accepted, so that the command is recorded. -/
def Persisted (l : Trace) : Prop :=
  ∃ type payload interpretation reply value, ⟨.submit type payload interpretation, reply⟩ ∈ l ∧
    reply.answer = .ok value ∧ (submitted value).isSome = true

/-- A routed call that fails names a consent where its op was not delivered, and where the op was delivered names none. -/
def Classified (l : Trace) : Prop :=
  ∀ op payload reply error detail, ⟨.routed op payload, reply⟩ ∈ l → reply.answer = .failed error detail →
    if (extractConsentId (detail.getD [])).isSome then reply.delivered = false
    else Persisted l → reply.delivered = true

end Law

section Quiet

variable {l : Trace} {out : ExecuteOutcome} {result : Except String ExecuteOutcome}

/-- So far nothing was routed or recorded. -/
def Quiet (l : Trace) : Prop := ∀ x ∈ l, isRouted x.1 = false ∧ rowOf x.1 = none

def Settled (l : Trace) (out : Except String ExecuteOutcome) : Prop := Lawful l out ↔ Classified l

lemma Quiet.snoc (h : Quiet l) {x : (_ : ConsoleCall) × Reply} (hx : isRouted x.1 = false ∧ rowOf x.1 = none) :
    Quiet (l ++ [x]) := by
  refine List.forall_mem_append.mpr ⟨h, ?_⟩
  rw [List.forall_mem_singleton]
  exact hx

lemma Quiet.no_rows (h : Quiet l) : rows l = [] := by
  rw [rows, List.filterMap_eq_nil_iff]
  exact fun x hx => (h x hx).2

lemma Quiet.not_delivered (h : Quiet l) : ¬ Delivered l := by
  rintro ⟨x, hx, hrouted, _⟩
  rw [(h x hx).1] at hrouted
  cases hrouted

lemma Quiet.settled (h : Quiet l) (result : Except String ExecuteOutcome) : Settled l result := by
  refine iff_of_true ⟨by rw [h.no_rows]; exact Nat.zero_le 1, by rw [h.no_rows]; simp, fun _ => h.not_delivered⟩ ?_
  intro op payload reply error detail hmem
  have hrouted := (h _ hmem).1
  cases hrouted

lemma Quiet.settled_recorded (h : Quiet l) {r : Resolution} (hr : r ≠ .executed) (row : List (String × Value))
    (reply : Reply) (result : Except String ExecuteOutcome) : Settled (l ++ [⟨.record r row, reply⟩]) result := by
  have hnone : ¬ Delivered (l ++ [⟨.record r row, reply⟩]) := by
    rintro ⟨x, hx, hrouted, hdelivered⟩
    obtain hx | hx := List.mem_append.mp hx
    · exact h.not_delivered ⟨x, hx, hrouted, hdelivered⟩
    · obtain rfl := List.mem_singleton.mp hx
      cases hrouted
  have hrows : rows (l ++ [⟨.record r row, reply⟩]) = [r] := by
    have happend : rows (l ++ [⟨.record r row, reply⟩]) = rows l ++ [r] := List.filterMap_append
    rw [happend]
    exact congrArg (· ++ [r]) h.no_rows
  refine iff_of_true ⟨by rw [hrows]; exact Nat.le_refl 1, ?_, fun _ => hnone⟩ ?_
  · rw [hrows, List.mem_singleton]
    exact fun heq => absurd heq.symm hr
  · intro op payload reply' error detail hmem
    obtain hmem | hmem := List.mem_append.mp hmem
    · have hrouted := (h _ hmem).1
      cases hrouted
    · cases List.mem_singleton.mp hmem

/-- The intent of the command is known by its submit. -/
def Bound (l : Trace) (out : ExecuteOutcome) : Prop :=
  Quiet l ∧ out.resolution = none ∧ (out.intentRef.isSome = true ↔ Persisted l)

lemma persisted_snoc {x : (_ : ConsoleCall) × Reply} :
    Persisted (l ++ [x]) ↔ Persisted l ∨ Persisted [x] := by
  constructor
  · rintro ⟨type, payload, interpretation, reply, value, hmem, hok, hsome⟩
    obtain hmem | hmem := List.mem_append.mp hmem
    · exact Or.inl ⟨type, payload, interpretation, reply, value, hmem, hok, hsome⟩
    · exact Or.inr ⟨type, payload, interpretation, reply, value, hmem, hok, hsome⟩
  · rintro (⟨type, payload, interpretation, reply, value, hmem, hok, hsome⟩ |
      ⟨type, payload, interpretation, reply, value, hmem, hok, hsome⟩)
    · exact ⟨type, payload, interpretation, reply, value, List.mem_append_left _ hmem, hok, hsome⟩
    · exact ⟨type, payload, interpretation, reply, value, List.mem_append_right _ hmem, hok, hsome⟩

lemma not_persisted {q : ConsoleCall} {reply : Reply} (h : ∀ type payload interpretation, q ≠ .submit type payload interpretation) :
    ¬ Persisted [⟨q, reply⟩] := by
  rintro ⟨type, payload, interpretation, _, _, hmem, _⟩
  cases List.mem_singleton.mp hmem
  exact h type payload interpretation rfl

lemma Bound.snoc (h : Bound l out) {q : ConsoleCall} (hq : isRouted q = false ∧ rowOf q = none)
    (hsubmit : ∀ type payload interpretation, q ≠ .submit type payload interpretation) (reply : Reply) :
    Bound (l ++ [⟨q, reply⟩]) out := by
  refine ⟨h.1.snoc hq, h.2.1, h.2.2.trans ?_⟩
  rw [persisted_snoc]
  exact ⟨Or.inl, fun hall => hall.resolve_right (not_persisted hsubmit)⟩

/-- The row that a routed call leaves, where it leaves one. -/
def Recorded (reply : Reply) (tail : Trace) : Prop :=
  tail = [] ∨ ∃ row reply', tail = [⟨.record (resolutionOf reply.answer) row, reply'⟩]

lemma delivered_routed (h : Quiet l) (op : String) (payload : Value) {reply : Reply} {tail : Trace}
    (htail : Recorded reply tail) :
    Delivered (l ++ ⟨.routed op payload, reply⟩ :: tail) ↔ reply.delivered = true := by
  constructor
  · rintro ⟨x, hx, hrouted, hdelivered⟩
    obtain hx | hx := List.mem_append.mp hx
    · exact absurd ⟨x, hx, hrouted, hdelivered⟩ h.not_delivered
    · obtain rfl | hx := List.mem_cons.mp hx
      · exact hdelivered
      · obtain rfl | ⟨row, reply', rfl⟩ := htail
        · cases hx
        · obtain rfl := List.mem_singleton.mp hx
          cases hrouted
  · exact fun hdelivered => ⟨_, List.mem_append_right _ List.mem_cons_self, rfl, hdelivered⟩

lemma rows_routed (h : Quiet l) (op : String) (payload : Value) {reply : Reply} {tail : Trace}
    (htail : Recorded reply tail) :
    rows (l ++ ⟨.routed op payload, reply⟩ :: tail) = if tail = [] then [] else [resolutionOf reply.answer] := by
  have happend : rows (l ++ ⟨.routed op payload, reply⟩ :: tail) = rows l ++ rows (⟨.routed op payload, reply⟩ :: tail) :=
    List.filterMap_append
  rw [happend, h.no_rows]
  obtain rfl | ⟨row, reply', rfl⟩ := htail
  · rfl
  · rfl

lemma persisted_routed (op : String) (payload : Value) {reply : Reply} {tail : Trace} (htail : Recorded reply tail) :
    Persisted (l ++ ⟨.routed op payload, reply⟩ :: tail) ↔ Persisted l := by
  have hrouted : ¬ Persisted [⟨.routed op payload, reply⟩] := not_persisted nofun
  obtain rfl | ⟨row, reply', rfl⟩ := htail
  · rw [persisted_snoc]
    exact ⟨fun hall => hall.resolve_right hrouted, Or.inl⟩
  · have hrecord : ¬ Persisted [⟨.record (resolutionOf reply.answer) row, reply'⟩] := not_persisted nofun
    rw [List.append_cons, persisted_snoc, persisted_snoc]
    exact ⟨fun hall => (hall.resolve_right hrecord).resolve_right hrouted, fun hl => Or.inl (Or.inl hl)⟩

lemma classified_routed (h : Quiet l) (op : String) (payload : Value) {reply : Reply} {tail : Trace}
    (htail : Recorded reply tail) :
    Classified (l ++ ⟨.routed op payload, reply⟩ :: tail) ↔ ∀ error detail, reply.answer = .failed error detail →
      if (extractConsentId (detail.getD [])).isSome then reply.delivered = false
      else Persisted l → reply.delivered = true := by
  have hpersisted := persisted_routed (l := l) op payload htail
  constructor
  · intro hall error detail hanswer
    have hone := hall op payload reply error detail (List.mem_append_right _ List.mem_cons_self) hanswer
    rwa [hpersisted] at hone
  · intro hall op' payload' reply' error detail hmem hanswer
    rw [hpersisted]
    obtain hmem | hmem := List.mem_append.mp hmem
    · have hrouted := (h _ hmem).1
      cases hrouted
    · obtain hmem | hmem := List.mem_cons.mp hmem
      · cases hmem
        exact hall error detail hanswer
      · obtain rfl | ⟨row, reply'', rfl⟩ := htail
        · cases hmem
        · cases List.mem_singleton.mp hmem

/-- A command that was routed is resolved as it should be just where the answer was classified as it should be. -/
lemma Quiet.settled_routed (h : Quiet l) (op : String) (payload : Value) {reply : Reply} {tail : Trace}
    (htail : Recorded reply tail) (hpersisted : Persisted l ↔ tail ≠ [])
    (hout : out.resolution = some (resolutionOf reply.answer)) :
    Settled (l ++ ⟨.routed op payload, reply⟩ :: tail) (.ok out) := by
  have hrows := rows_routed h op payload htail
  have hdelivered := delivered_routed h op payload htail
  rw [Settled, classified_routed h op payload htail]
  have honce : (rows (l ++ ⟨.routed op payload, reply⟩ :: tail)).length ≤ 1 := by
    rw [hrows]
    split_ifs <;> simp
  have hmem : ∀ r, r ∈ rows (l ++ ⟨.routed op payload, reply⟩ :: tail) ↔ tail ≠ [] ∧ r = resolutionOf reply.answer := by
    intro r
    rw [hrows]
    split_ifs with hnil <;> simp [hnil]
  have hresolved : ∀ r, (r ∈ rows (l ++ ⟨.routed op payload, reply⟩ :: tail) ∨
      ∃ o, (.ok out : Except String ExecuteOutcome) = .ok o ∧ o.resolution = some r) ↔ r = resolutionOf reply.answer := by
    intro r
    rw [hmem]
    constructor
    · rintro (⟨_, hr⟩ | ⟨o, ho, hr⟩)
      · exact hr
      · cases ho
        exact (Option.some.inj (hout.symm.trans hr)).symm
    · rintro rfl
      exact Or.inr ⟨out, rfl, hout⟩
  have hlawful : Lawful (l ++ ⟨.routed op payload, reply⟩ :: tail) (.ok out) ↔
      (tail ≠ [] → resolutionOf reply.answer = .executed → reply.delivered = true) ∧
        (resolutionOf reply.answer ≠ .executed → reply.delivered ≠ true) := by
    constructor
    · rintro ⟨_, hexecuted, hkept⟩
      rw [hdelivered] at hexecuted hkept
      refine ⟨fun hnil heq => hexecuted ((hmem _).mpr ⟨hnil, heq.symm⟩), fun hne => ?_⟩
      exact hkept ⟨_, hne, (hresolved _).mpr rfl⟩
    · rintro ⟨hexecuted, hkept⟩
      refine ⟨honce, ?_, ?_⟩
      · rw [hmem, hdelivered]
        exact fun hrow => hexecuted hrow.1 hrow.2.symm
      · rintro ⟨r, hne, hr⟩
        rw [hresolved] at hr
        rw [hdelivered]
        exact hkept (hr ▸ hne)
  rw [hlawful]
  cases hanswer : reply.answer with
  | ok value =>
    have hsound := reply.sound (by rw [hanswer]; rfl)
    refine iff_of_true ⟨fun _ _ => hsound, fun hne => absurd rfl hne⟩ ?_
    intro error detail heq
    cases heq
  | failed error detail =>
    have hall : (∀ error' detail', Answer.failed error detail = .failed error' detail' →
        if (extractConsentId (detail'.getD [])).isSome then reply.delivered = false
        else Persisted l → reply.delivered = true) ↔
        if (extractConsentId (detail.getD [])).isSome then reply.delivered = false
        else Persisted l → reply.delivered = true := by
      refine ⟨fun hall => hall error detail rfl, ?_⟩
      rintro hone _ _ ⟨rfl, rfl⟩
      exact hone
    rw [hall, hpersisted, resolutionOf]
    cases (extractConsentId (detail.getD [])).isSome with
    | true => simp
    | false => simp

end Quiet

section Runs

variable {past l : Trace} {out : ExecuteOutcome} {language : Language} {text : JsString} {interp : Interpretation}
  {ir : IR} {w : Value}

/-- A program asks what it likes, and ends so. -/
abbrev Ends (ends : Trace → Except String α → Prop) (past : Trace) (p : ConsoleM α) : Prop :=
  p.run.Meets (fun _ _ => True) ends past

lemma world_ends (past : Trace) : Ends (fun l _ => ∃ reply, l = past ++ [⟨.snapshot, reply⟩]) past world := by
  refine Throwing.meets_ask trivial fun reply => ?_
  cases reply.answer with
  | failed error detail => exact ⟨reply, rfl⟩
  | ok value => cases property value "world" <;> exact ⟨reply, rfl⟩

lemma recordResolution_ends (past : Trace) (resolution : Resolution) (row : List (String × Value)) :
    Ends (fun l r => (∃ recorded, r = .ok recorded) ∧ ∃ reply, l = past ++ [⟨.record resolution row, reply⟩]) past
      (recordResolution resolution row) := by
  refine Throwing.meets_ask trivial fun reply => ?_
  exact ⟨⟨_, rfl⟩, reply, rfl⟩

lemma serveSurface_ends (h : Quiet past) :
    Ends (Settled · ·) past (serveSurface language text interp w out) := by
  have hambiguous : Ends (fun l _ => Quiet l ∨ ∃ l' row reply, Quiet l' ∧ l = l' ++ [⟨.record .ambiguous row, reply⟩]) past
      (recordAmbiguous text interp out) := by
    unfold recordAmbiguous
    split_ifs
    · refine Throwing.meets_bind (recordResolution_ends past _ _) ?_ ?_
      · rintro l e ⟨⟨_, hok⟩, _⟩
        cases hok
      · rintro l _ ⟨_, reply, rfl⟩
        exact Throwing.meets_pure (Or.inr ⟨past, _, reply, h, rfl⟩)
    · exact Throwing.meets_pure (Or.inl h)
  have hsettled : ∀ l (result : Except String ExecuteOutcome),
      (Quiet l ∨ ∃ l' row reply, Quiet l' ∧ l = l' ++ [⟨.record .ambiguous row, reply⟩]) → Settled l result := by
    rintro l result (hquiet | ⟨l', row, reply, hquiet, rfl⟩)
    · exact hquiet.settled result
    · exact hquiet.settled_recorded (by decide) row reply result
  refine Throwing.meets_bind hambiguous (fun l e hl => hsettled l _ hl) fun l o hl => ?_
  exact Throwing.meets_lift (fun e _ => hsettled l _ hl) fun surface _ => Throwing.meets_pure (hsettled l _ hl)

lemma submitIntent_ends (h : Quiet past) (hnone : ¬ Persisted past) (hout : out.intentRef = none)
    (hres : out.resolution = none) :
    Ends (fun l r => ∃ o, r = .ok o ∧ Bound l o) past (submitIntent text interp ir out) := by
  refine Throwing.meets_ask trivial fun reply => ?_
  have hquiet : ∀ q, isRouted q = false ∧ rowOf q = none → Quiet (past ++ [⟨q, reply⟩]) := fun q hq => h.snoc hq
  cases hanswer : reply.answer with
  | failed error detail =>
    refine ⟨out, rfl, hquiet _ ⟨rfl, rfl⟩, hres, ?_⟩
    rw [hout, persisted_snoc]
    refine iff_of_false (by simp) (not_or.mpr ⟨hnone, ?_⟩)
    rintro ⟨_, _, _, _, value, hmem, hok, _⟩
    cases List.mem_singleton.mp hmem
    rw [hanswer] at hok
    cases hok
  | ok value =>
    dsimp only
    cases hsubmitted : submitted value with
    | none =>
      refine ⟨out, rfl, hquiet _ ⟨rfl, rfl⟩, hres, ?_⟩
      rw [hout, persisted_snoc]
      refine iff_of_false (by simp) (not_or.mpr ⟨hnone, ?_⟩)
      rintro ⟨_, _, _, _, value', hmem, hok, hsome⟩
      cases List.mem_singleton.mp hmem
      rw [hanswer] at hok
      cases hok
      rw [hsubmitted] at hsome
      cases hsome
    | some found =>
      refine ⟨_, rfl, hquiet _ ⟨rfl, rfl⟩, hres, ?_⟩
      refine iff_of_true rfl ?_
      rw [persisted_snoc]
      exact Or.inr ⟨_, _, _, reply, value, List.mem_singleton_self _, hanswer, by rw [hsubmitted]; rfl⟩

lemma checkRuleAction_ends (h : Bound past out) :
    Ends (fun l r => match r with
      | .ok o => Bound l o
      | .error _ => Quiet l) past (checkRuleAction ir out) := by
  unfold checkRuleAction
  split_ifs
  · refine Throwing.meets_ask trivial fun reply => ?_
    have hbound : Bound (past ++ [⟨.ruleCheck, reply⟩]) out := h.snoc ⟨rfl, rfl⟩ (fun _ _ _ heq => by cases heq) reply
    cases reply.answer with
    | failed error detail => exact hbound
    | ok d => exact Throwing.meets_lift (fun _ _ => hbound.1) fun _ _ => Throwing.meets_pure hbound
  · exact Throwing.meets_pure h

lemma route_ends (h : Bound past out) : Ends (Settled · ·) past (route text ir out) := by
  obtain ⟨hquiet, _, hpersisted⟩ := h
  refine Throwing.meets_ask trivial fun reply => ?_
  dsimp only
  cases hintent : out.intentRef with
  | none =>
    rw [hintent] at hpersisted
    exact Throwing.meets_pure (hquiet.settled_routed _ _ (Or.inl rfl) (iff_of_false (fun hp => nomatch hpersisted.mpr hp)
      (fun hne => hne rfl)) rfl)
  | some intentRef =>
    rw [hintent] at hpersisted
    refine Throwing.meets_bind (recordResolution_ends _ _ _) ?_ ?_
    · rintro l e ⟨⟨_, hok⟩, _⟩
      cases hok
    · rintro l recorded ⟨_, reply', rfl⟩
      rw [← List.append_cons]
      exact Throwing.meets_pure (hquiet.settled_routed _ _ (Or.inr ⟨_, reply', rfl⟩)
        (iff_of_true (hpersisted.mp rfl) (List.cons_ne_nil _ _)) rfl)

lemma gateAndRoute_ends (h : Bound past out) : Ends (Settled · ·) past (gateAndRoute text ir w out) := by
  unfold gateAndRoute
  refine Throwing.meets_lift (fun e _ => h.1.settled _) fun risk _ => ?_
  cases hintent : out.intentRef with
  | none => exact route_ends h
  | some intentRef =>
    dsimp only
    split_ifs
    · refine Throwing.meets_ask trivial fun reply => ?_
      have hbound : Bound (past ++ [⟨.gate ir.intent ir.payload intentRef out.payloadHash, reply⟩]) out :=
        h.snoc ⟨rfl, rfl⟩ (fun _ _ _ heq => by cases heq) reply
      cases reply.answer with
      | failed error detail => exact route_ends hbound
      | ok d =>
        refine Throwing.meets_lift (fun e _ => hbound.1.settled _) fun decision _ => ?_
        split_ifs
        · refine Throwing.meets_bind (recordResolution_ends _ _ _) ?_ ?_
          · rintro l e ⟨⟨_, hok⟩, _⟩
            cases hok
          · rintro l recorded ⟨_, reply', rfl⟩
            exact Throwing.meets_pure (hbound.1.settled_recorded (by decide) _ reply' _)
        · exact route_ends hbound
    · exact route_ends h

lemma execute_ends (language : Language) (text : JsString) : Ends (Settled · ·) [] (execute language text) := by
  have hopen : ∀ first second : Reply, Quiet [⟨.snapshot, first⟩, ⟨.snapshot, second⟩] ∧
      ¬ Persisted [⟨.snapshot, first⟩, ⟨.snapshot, second⟩] := by
    intro first second
    refine ⟨by simp [Quiet, isRouted, rowOf], ?_⟩
    rintro ⟨_, _, _, _, _, hmem, _⟩
    simp at hmem
  have hstart : ∀ first : Reply, Quiet [⟨.snapshot, first⟩] := by
    intro first
    simp [Quiet, isRouted, rowOf]
  unfold execute
  refine Throwing.meets_bind (world_ends []) ?_ ?_
  · rintro l e ⟨first, rfl⟩
    exact (hstart first).settled _
  rintro l seen ⟨first, rfl⟩
  refine Throwing.meets_lift (fun e _ => (hstart first).settled _) fun interp _ => ?_
  refine Throwing.meets_bind (world_ends _) ?_ ?_
  · rintro l e ⟨second, rfl⟩
    exact (hopen first second).1.settled _
  rintro l w ⟨second, rfl⟩
  obtain ⟨hquiet, hnone⟩ := hopen first second
  refine Throwing.meets_lift (fun e _ => hquiet.settled _) fun v _ => ?_
  dsimp only
  cases interp.ir with
  | none => exact serveSurface_ends hquiet
  | some ir =>
    dsimp only
    split_ifs
    · exact serveSurface_ends hquiet
    · refine Throwing.meets_bind (submitIntent_ends hquiet hnone rfl rfl) ?_ ?_
      · rintro l e ⟨o, ho, _⟩
        cases ho
      rintro l _ ⟨out, ⟨rfl⟩, hbound⟩
      refine Throwing.meets_bind (checkRuleAction_ends hbound) (fun l e hl => hl.settled _) fun l out hl => ?_
      exact gateAndRoute_ends hl

end Runs

/-- Whatever the calls of a command are told, its row says what became of it just where the answer to its routed call is
classified as it should be. -/
theorem resolution_lawful_iff (language : Language) (text : JsString) {l : Trace}
    {result : Except String ExecuteOutcome} (h : (execute language text).run.After l (.done result)) :
    Lawful l result ↔ Classified l := by
  have hends := (execute_ends language text).after h
  exact hends

section Samples

def okReply (members : List (String × Value)) : Reply := ⟨.ok (fields members), true, fun _ => rfl⟩

/-- Answers of a system that knows no ops, accepts every intent and allows every call. -/
def replyWith (routed : Reply) : ConsoleCall → Reply
  | .snapshot => okReply [("world", fields [("v", jsText "1"), ("ops", .array [])])]
  | .submit _ _ _ => okReply [("status", jsText "OK"), ("value", fields [("intentId", jsText "intent:1")])]
  | .ruleCheck => okReply [("decision", jsText "allow")]
  | .gate _ _ _ _ => okReply [("decision", jsText "allow")]
  | .routed _ _ => routed
  | .record _ _ => okReply [("status", jsText "OK")]

def noteLanguage : Language where
  interpret _ _ := .ok ⟨some ⟨"note.add@1", .object []⟩, jsText "/note", jsText "note", .null, jsText "ok"⟩
  surfacePayload _ _ _ := .ok .null

def noteCommand (routed : Reply) : Trace × Except String ExecuteOutcome :=
  (execute noteLanguage (ofText "note")).run.told (replyWith routed)

lemma noteCommand_after (routed : Reply) :
    (execute noteLanguage (ofText "note")).run.After (noteCommand routed).1 (.done (noteCommand routed).2) :=
  Process.after_told _ _

def added : Reply := okReply [("id", jsText "n1")]

def unrouted : Reply := ⟨.failed "REFUSED" (some (ofText "no routed implementation for note.add@1")), false, nofun⟩

theorem resolution_lawful_added : Lawful (noteCommand added).1 (noteCommand added).2 := by
  refine (resolution_lawful_iff _ _ (noteCommand_after added)).mpr ?_
  have hok : (noteCommand added).1.all (fun x => !isRouted x.1 || x.2.answer.isOk) = true := by decide
  intro op payload reply error detail hmem hanswer
  have hone := List.all_eq_true.mp hok _ hmem
  rw [hanswer] at hone
  cases hone

/-- A command whose op no implementation is routed for is recorded as executed. -/
theorem unrouted_executed : ∃ language text l result,
    (execute language text).run.After l (.done result) ∧ ¬ Lawful l result := by
  refine ⟨_, _, _, _, noteCommand_after unrouted, fun hlawful => ?_⟩
  have hrows : rows (noteCommand unrouted).1 = [.executed] := by decide
  have hkept : (noteCommand unrouted).1.all (fun x => !(isRouted x.1 && x.2.delivered)) = true := by decide
  obtain ⟨x, hx, hrouted, hdelivered⟩ := hlawful.executed (by rw [hrows]; exact List.mem_singleton_self _)
  have hone := List.all_eq_true.mp hkept x hx
  rw [hrouted, hdelivered] at hone
  cases hone

end Samples

end VivimOmega.Console

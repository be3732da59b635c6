import VivimOmega.Email.Message

/-! Reads and moves of one message in any interleaving: what each writes back, and what that undoes. -/

namespace VivimOmega.Email

open Library Library.Json Contracts Vault

abbrev Task := Process Request Reply (Except String MessageResult)

abbrev Mailbox := Pool Request Reply (Except String MessageResult) Log Fault MessageCall

/-- The message operations over a vault that holds anything. -/
def mailbox : System Mailbox (PoolEvent Fault MessageCall) := Pool.system port handle fun _ => True

section Stages

variable {c : MessageCall} {p : Task}

/-- The op, the object and the change that a call with a proper payload asks for. -/
structure Update where
  op : String
  id : String
  change : Message → Option Message
  answer : Message → ℕ → Bool → MessageResult

def updateOf : MessageCall → Option Update
  | .read payload => (readId payload).toOption.map fun id =>
    { op := "message.read@1"
      id := toText id
      change := fun m => if m.flags.seen then none else some (applySeen m)
      answer := fun m rev seenMarked => .read ⟨m, rev, seenMarked⟩ }
  | .move payload => (validateMovePayload "message.move@1" payload).toOption.map fun r =>
    { op := "message.move@1"
      id := toText r.1.1
      change := fun m => if m.folder = r.2 then none else some (applyMove m r.2)
      answer := fun _ rev changed => .move ⟨r.1, rev, r.2, changed⟩ }

def afterAppend (u : Update) (m : Message) (q : Request) (r : Except Failure ℕ) :
    Task :=
  match r with
  | .error f => .done (.error (failed q f))
  | .ok rev => .done (.ok (u.answer m rev true))

def afterGet (u : Update) (r : Except Failure Got) : Task :=
  match r with
  | .error f => .done (.error (failed (.get emailNs u.id) f))
  | .ok got =>
    match asMessage u.op got.data with
    | .error e => .done (.error e)
    | .ok m =>
      match u.change m with
      | none => .done (.ok (u.answer m got.rev false))
      | some m' => .ask (.append emailNs u.id m'.value messageMeta)
        (afterAppend u m' (.append emailNs u.id m'.value messageMeta))

/-- Both operations read the message, change it and write it back. -/
lemma handle_eq (c : MessageCall) : match updateOf c with
    | none => ∃ e, handle c = .done (.error e)
    | some u => handle c = .ask (.get emailNs u.id) (afterGet u) := by
  cases c with
  | read payload =>
    rw [updateOf, handle, messageRead, run_lift]
    cases readId payload with
    | error e => exact ⟨e, rfl⟩
    | ok id =>
      dsimp only [Except.toOption, Option.map_some]
      rw [run_vaultCall, Process.bind_ask]
      apply congrArg (Process.ask _)
      funext r
      cases r with
      | error f => rfl
      | ok got =>
        dsimp only
        rw [run_lift]
        simp only [afterGet]
        cases asMessage "message.read@1" got.data with
        | error e => rfl
        | ok m =>
          dsimp only
          split_ifs
          · rfl
          · rw [run_vaultCall, Process.bind_ask]
            apply congrArg (Process.ask _)
            funext r
            cases r <;> rfl
  | move payload =>
    rw [updateOf, handle, messageMove, run_lift]
    cases validateMovePayload "message.move@1" payload with
    | error e => exact ⟨e, rfl⟩
    | ok r =>
      dsimp only [Except.toOption, Option.map_some]
      rw [run_vaultCall, Process.bind_ask]
      apply congrArg (Process.ask _)
      funext reply
      cases reply with
      | error f => rfl
      | ok got =>
        dsimp only
        rw [run_lift]
        simp only [afterGet]
        cases asMessage "message.move@1" got.data with
        | error e => rfl
        | ok m =>
          dsimp only
          split_ifs
          · rfl
          · rw [run_vaultCall, Process.bind_ask]
            apply congrArg (Process.ask _)
            funext reply
            cases reply <;> rfl

/-- What is left of a call: it failed, or it still has to get the message, to append it, or it is done. -/
lemma stages {answers : List ((q : Request) × Reply q)} (h : (handle c).After answers p) :
    (∃ e, p = .done (.error e)) ∨
    (∃ u, updateOf c = some u ∧ answers = [] ∧ p = .ask (.get emailNs u.id) (afterGet u)) ∨
    (∃ u got m m', updateOf c = some u ∧ answers = [⟨.get emailNs u.id, .ok got⟩] ∧ asMessage u.op got.data = .ok m ∧
      u.change m = some m' ∧ p = .ask (.append emailNs u.id m'.value messageMeta)
        (afterAppend u m' (.append emailNs u.id m'.value messageMeta))) ∨
    ∃ r, p = .done (.ok r) := by
  induction h with
  | nil =>
    have hc := handle_eq c
    cases hu : updateOf c with
    | none =>
      rw [hu] at hc
      exact Or.inl hc
    | some u =>
      rw [hu] at hc
      exact Or.inr (Or.inl ⟨u, rfl, rfl, hc⟩)
  | snoc a _ ih =>
    obtain ⟨e, he⟩ | ⟨u, hu, hnil, hask⟩ | ⟨u, got, m, m', hu, hone, hm, hchange, hask⟩ | ⟨r, hr⟩ := ih
    · cases he
    · cases hask
      cases a with
      | error f => exact Or.inl ⟨_, rfl⟩
      | ok got =>
        rw [hnil]
        cases hm : asMessage u.op got.data with
        | error e =>
          refine Or.inl ⟨e, ?_⟩
          simp only [afterGet, hm]
        | ok m =>
          cases hchange : u.change m with
          | none =>
            refine Or.inr (Or.inr (Or.inr ⟨u.answer m got.rev false, ?_⟩))
            simp only [afterGet, hm, hchange]
          | some m' =>
            refine Or.inr (Or.inr (Or.inl ⟨u, got, m, m', hu, rfl, hm, hchange, ?_⟩))
            simp only [afterGet, hm, hchange]
    · cases hask
      cases a with
      | error f => exact Or.inl ⟨_, rfl⟩
      | ok rev => exact Or.inr (Or.inr (Or.inr ⟨_, rfl⟩))
    · cases hr

end Stages

section Effects

/-- The message as its latest revision has it. -/
def message? (log : Log) (id : String) : Option Message :=
  (log.latest? emailNs id).bind fun r => (asMessage "message.read@1" r.data).toOption

lemma message?_append (log : Log) (id id' : String) (m : Message) :
    message? (log.append emailNs id m.value messageMeta) id' = if id = id' then some m else message? log id' := by
  rw [message?, Log.append, Log.latest?_append]
  by_cases h : id = id'
  · simp [h, asMessage_value, Except.toOption]
  · simp [h, message?]

/-- Where a move takes the message. -/
def moveTarget (id : String) : MessageCall → Option (Str false)
  | .read _ => none
  | .move payload =>
    match validateMovePayload "message.move@1" payload with
    | .ok r => if toText r.1.1 = id then some r.2 else none
    | .error _ => none

def movedBy (id : String) (v : Served Request Reply Fault MessageCall) : Option (Str false) :=
  if v.fault.executes && v.exchange.1.isAppend then moveTarget id v.call else none

/-- The folder of the move whose append came last. -/
def moved (s : Mailbox) (id : String) : Option (Str false) := (s.history.filterMap (movedBy id)).getLast?

def gottenBy : (q : Request) × Reply q → Option Message
  | ⟨.get _ _, .ok got⟩ => (asMessage "message.read@1" got.data).toOption
  | _ => none

/-- The message that a task got. -/
def gotten (s : Mailbox) (n : ℕ) : Option Message :=
  (s.answers n).findSome? gottenBy

variable {s t : Mailbox}

lemma updateOf_read {payload : Value} {u : Update} {m m' : Message} (hu : updateOf (.read payload) = some u)
    (h : u.change m = some m') : m' = applySeen m := by
  rw [updateOf] at hu
  obtain ⟨id, _, rfl⟩ := Option.map_eq_some_iff.mp hu
  dsimp only at h
  split_ifs at h
  exact (Option.some.inj h).symm

lemma updateOf_readId {payload : Value} {i : JsString} (h : readId payload = .ok i) {u : Update}
    (hu : updateOf (.read payload) = some u) : u.id = toText i ∧ ∀ m, u.change m = none → m.flags.seen = true := by
  rw [updateOf, h] at hu
  obtain rfl := Option.some.inj hu
  refine ⟨rfl, fun m hm => ?_⟩
  dsimp only at hm
  split_ifs at hm with hseen
  exact hseen

lemma updateOf_move {payload : Value} {u : Update} {m m' : Message} (hu : updateOf (.move payload) = some u)
    (h : u.change m = some m') : ∃ folder, moveTarget u.id (.move payload) = some folder ∧ m' = applyMove m folder := by
  rw [updateOf] at hu
  obtain ⟨r, hr, rfl⟩ := Option.map_eq_some_iff.mp hu
  dsimp only at h
  split_ifs at h
  refine ⟨r.2, ?_, (Option.some.inj h).symm⟩
  rw [moveTarget]
  cases hv : validateMovePayload "message.move@1" payload with
  | error e =>
    rw [hv] at hr
    cases hr
  | ok r' =>
    rw [hv] at hr
    obtain rfl : r' = r := Option.some.inj hr
    exact if_pos rfl

/-- A get that ends the call found what the call is for. -/
lemma serve_get_done {u : Update} {fault : Fault} {log : Log} {r : MessageResult}
    (h : afterGet u (port.serve fault log (.get emailNs u.id)).1 = .done (.ok r)) :
    ∃ m, message? log u.id = some m ∧ u.change m = none := by
  cases hserve : (port.serve fault log (.get emailNs u.id)).1 with
  | error f =>
    rw [hserve] at h
    cases h
  | ok got =>
    obtain ⟨_, hanswer⟩ := serve_ok hserve
    rw [hserve] at h
    simp only [afterGet] at h
    cases hm : asMessage u.op got.data with
    | error e =>
      rw [hm] at h
      cases h
    | ok m =>
      rw [hm] at h
      cases hchange : u.change m with
      | some m' => simp only [hchange, reduceCtorEq] at h
      | none =>
        refine ⟨m, ?_, hchange⟩
        rw [message?]
        simp only [Log.answer, Log.got?] at hanswer
        cases hlatest : log.latest? emailNs u.id with
        | none =>
          rw [hlatest] at hanswer
          cases hanswer
        | some revision =>
          rw [hlatest] at hanswer
          cases hanswer
          rw [Option.bind_some, asMessage_op _ u.op, hm]
          rfl

lemma moveTarget_id {c : MessageCall} {u : Update} {id : String} (hu : updateOf c = some u) (h : u.id ≠ id) :
    moveTarget id c = none := by
  cases c with
  | read payload => rfl
  | move payload =>
    rw [updateOf] at hu
    obtain ⟨r, hr, rfl⟩ := Option.map_eq_some_iff.mp hu
    rw [moveTarget]
    cases hv : validateMovePayload "message.move@1" payload with
    | error e => rfl
    | ok r' =>
      rw [hv] at hr
      obtain rfl : r' = r := Option.some.inj hr
      exact if_neg h

/-- The log and the moves are as they were, but for the message that a served append writes. -/
lemma step_message {ok : Mailbox → PoolEvent Fault MessageCall → Prop} {e : PoolEvent Fault MessageCall}
    (hs : mailbox.Reachable ok s) (hstep : mailbox.step s e = some t) (id : String) :
    message? t.store id = message? s.store id ∧ moved t id = moved s id ∨
      ∃ n fault c u m m' next, e = .serve n fault ∧ fault.executes = true ∧
        s.tasks[n]? = some (c, .ask (.append emailNs id m'.value messageMeta) next) ∧ updateOf c = some u ∧ u.id = id ∧
        gotten s n = some m ∧ u.change m = some m' ∧ message? t.store id = some m' ∧
        moved t id = (moveTarget id c).or (moved s id) := by
  obtain ⟨c, rfl, rfl⟩ | ⟨n, fault, c, q, next, rfl, htask, rfl⟩ := Pool.step_cases hstep
  · exact Or.inl ⟨rfl, rfl⟩
  have hmoved : moved (s.advance port n c fault q next) id =
      (if fault.executes && q.isAppend then moveTarget id c else none).or (moved s id) := by
    rw [moved, Pool.advance, List.filterMap_append, List.getLast?_append, moved]
    congr 1
    rw [List.filterMap_cons, List.filterMap_nil, movedBy]
    cases (if fault.executes && q.isAppend then moveTarget id c else none) <;> rfl
  have hstore : (s.advance port n c fault q next).store = if fault.executes then s.store.after q else s.store :=
    serve_store fault s.store q
  by_cases hexec : fault.executes = true
  · have hlog : message? (s.advance port n c fault q next).store id = message? (s.store.after q) id := by
      rw [hstore, if_pos hexec]
    rw [hexec, Bool.true_and] at hmoved
    obtain ⟨e, he⟩ | ⟨u, hu, _, hask⟩ | ⟨u, got, m, m', hu, hone, hm, hchange, hask⟩ | ⟨r, hr⟩ :=
      stages (Pool.after hs htask)
    · cases he
    · cases hask
      exact Or.inl ⟨hlog, hmoved⟩
    · cases hask
      have hwritten := hlog.trans (message?_append s.store u.id id m')
      by_cases hid : u.id = id
      · subst hid
        rw [if_pos rfl] at hwritten
        refine Or.inr ⟨n, fault, c, u, m, m', _, rfl, hexec, htask, hu, rfl, ?_, hchange, hwritten, hmoved⟩
        rw [gotten, hone, List.findSome?_cons, gottenBy, asMessage_op _ u.op, hm]
        rfl
      · rw [if_neg hid] at hwritten
        rw [moveTarget_id hu hid, ite_self, Option.none_or] at hmoved
        exact Or.inl ⟨hwritten, hmoved⟩
    · cases hr
  · rw [hstore, if_neg hexec]
    refine Or.inl ⟨rfl, ?_⟩
    rw [hmoved, Bool.eq_false_of_not_eq_true hexec, Bool.false_and, if_neg Bool.false_ne_true, Option.none_or]

end Effects

section Kept

variable {s t : Mailbox}

/-- A read of the message succeeded. -/
def Marked (s : Mailbox) (id : String) : Prop :=
  ∃ (n : ℕ) (payload : Value) (r : MessageResult) (i : JsString), s.tasks[n]? = some (MessageCall.read payload, (Process.done (Except.ok r) : Task)) ∧
    readId payload = .ok i ∧ toText i = id

/-- The message is seen if a read succeeded, and is in the folder of the move whose append came last. -/
def Kept (s : Mailbox) : Prop :=
  ∀ id, (Marked s id → ∃ m, message? s.store id = some m ∧ m.flags.seen = true) ∧
    ∀ folder, moved s id = some folder → ∃ m, message? s.store id = some m ∧ m.folder = folder

/-- The move whose append an event serves. -/
def moveServed (s : Mailbox) (id : String) : PoolEvent Fault MessageCall → Option (Str false)
  | .call _ => none
  | .serve n _ =>
    match s.tasks[n]? with
    | some (c, .ask (.append ..) _) => moveTarget id c
    | _ => none

/-- A message that was seen stays seen, and only a move takes it elsewhere. -/
def Undisturbed (s : Mailbox) (e : PoolEvent Fault MessageCall) (t : Mailbox) : Prop :=
  ∀ id m, message? s.store id = some m → ∃ m', message? t.store id = some m' ∧
    (m.flags.seen = true → m'.flags.seen = true) ∧ (m'.folder = m.folder ∨ moveServed s id e = some m'.folder)

/-- What a call would undo is as the call got it. -/
def untouched (got latest : Message) : MessageCall → Bool
  | .read _ => latest.folder = got.folder
  | .move _ => !latest.flags.seen || got.flags.seen

/-- When a read is appended, the latest revision is in the folder that the read saw; when a move is, a message that is
seen was seen when the move got it. -/
def UpToDate (s : Mailbox) : PoolEvent Fault MessageCall → Bool
  | .call _ => true
  | .serve n _ =>
    match s.tasks[n]? with
    | some (c, .ask (.append _ id _ _) _) =>
      (gotten s n).all fun got => (message? s.store id).all fun latest => untouched got latest c
    | _ => true

/-- The append of an up-to-date call does what the call is for and disturbs nothing else. -/
lemma step_undisturbed {e : PoolEvent Fault MessageCall} (hs : mailbox.Reachable (fun s e => UpToDate s e) s) (hok : UpToDate s e = true)
    (hstep : mailbox.step s e = some t) : Undisturbed s e t := by
  intro id m hm
  obtain ⟨hmessage, _⟩ | ⟨n, fault, c, u, got, m', next, rfl, _, htask, hu, rfl, hgot, hchange, hlatest, _⟩ :=
    step_message hs hstep id
  · exact ⟨m, hmessage.trans hm, fun h => h, Or.inl rfl⟩
  · rw [UpToDate, htask] at hok
    have huntouched : untouched got m c = true := by
      simpa [hgot, hm] using hok
    refine ⟨m', hlatest, ?_⟩
    rw [moveServed, htask]
    cases c with
    | read payload =>
      obtain rfl := updateOf_read hu hchange
      exact ⟨fun _ => rfl, Or.inl (of_decide_eq_true huntouched).symm⟩
    | move payload =>
      obtain ⟨folder, htarget, rfl⟩ := updateOf_move hu hchange
      refine ⟨fun hseen => ?_, Or.inr htarget⟩
      rw [untouched, hseen, Bool.not_true, Bool.false_or] at huntouched
      exact huntouched

/-- A read that a step completes leaves the message seen. -/
lemma step_marked {ok : Mailbox → PoolEvent Fault MessageCall → Prop} {e : PoolEvent Fault MessageCall}
    (hs : mailbox.Reachable ok s) (hstep : mailbox.step s e = some t) {id : String} (h : Marked t id) :
    Marked s id ∨ ∃ m, message? t.store id = some m ∧ m.flags.seen = true := by
  obtain ⟨m, payload, r, i, hm, hread, hid⟩ := h
  obtain ⟨c, rfl, rfl⟩ | ⟨n, fault, c, q, next, rfl, htask, rfl⟩ := Pool.step_cases hstep
  · obtain hold | ⟨_, rfl, hdone⟩ := Pool.getElem?_start hm
    · exact Or.inl ⟨m, payload, r, i, hold, hread, hid⟩
    · have hhandle := handle_eq (.read payload)
      rw [updateOf, hread, ← hdone] at hhandle
      cases hhandle
  · obtain ⟨_, hold⟩ | ⟨rfl, rfl, hdone⟩ := Pool.getElem?_advance hm
    · exact Or.inl ⟨m, payload, r, i, hold, hread, hid⟩
    · right
      obtain ⟨e, he⟩ | ⟨u, hu, _, hask⟩ | ⟨u, _, got', m', hu, _, _, hchange, hask⟩ | ⟨r, hr⟩ :=
        stages (Pool.after hs htask)
      · cases he
      · cases hask
        obtain ⟨hid', hseen⟩ := updateOf_readId hread hu
        obtain ⟨latest, hlatest, hnone⟩ := serve_get_done hdone.symm
        refine ⟨latest, ?_, hseen latest hnone⟩
        rw [← hid, ← hid', ← hlatest]
        exact congrArg (message? · u.id) (serve_get_store fault s.store emailNs u.id)
      · cases hask
        obtain ⟨hid', _⟩ := updateOf_readId hread hu
        obtain rfl := updateOf_read hu hchange
        refine ⟨applySeen got', ?_, rfl⟩
        have hserve : fault = .none := by
          cases fault with
          | none => rfl
          | refused f => cases hdone
          | lost f => cases hdone
        subst hserve
        rw [← hid, ← hid']
        exact (message?_append s.store u.id u.id _).trans (if_pos rfl)
      · cases hr

lemma kept_of_reachable (h : mailbox.Reachable (fun s e => UpToDate s e) s) : Kept s := by
  induction h with
  | start hinit =>
    obtain ⟨_, htasks, hhistory⟩ := hinit
    refine fun id => ⟨?_, ?_⟩
    · rintro ⟨n, payload, r, i, hn, _⟩
      rw [htasks, List.getElem?_nil] at hn
      cases hn
    · intro folder hmoved
      rw [moved, hhistory, List.filterMap_nil, List.getLast?_nil] at hmoved
      cases hmoved
  | @next s e t hs hok hstep ih =>
    have hkeep := step_undisturbed hs hok hstep
    refine fun id => ⟨fun hmarked => ?_, fun folder hmoved => ?_⟩
    · obtain hold | hnew := step_marked hs hstep hmarked
      · obtain ⟨m, hm, hseen⟩ := (ih id).1 hold
        obtain ⟨m', hm', hseen', _⟩ := hkeep id m hm
        exact ⟨m', hm', hseen' hseen⟩
      · exact hnew
    · obtain ⟨hmessage, hsame⟩ | ⟨n, fault, c, u, got, m', next, rfl, _, htask, hu, rfl, _, hchange, hlatest, hlast⟩ :=
        step_message hs hstep id
      · rw [hsame] at hmoved
        obtain ⟨m, hm, hfolder⟩ := (ih id).2 folder hmoved
        exact ⟨m, hmessage.trans hm, hfolder⟩
      · rw [hlast] at hmoved
        cases c with
        | read payload =>
          obtain ⟨m, hm, hfolder⟩ := (ih u.id).2 folder hmoved
          obtain ⟨m'', hm'', _, hkept | hmove⟩ := hkeep u.id m hm
          · exact ⟨m'', hm'', hkept.trans hfolder⟩
          · rw [moveServed, htask] at hmove
            cases hmove
        | move payload =>
          obtain ⟨target, htarget, rfl⟩ := updateOf_move hu hchange
          rw [htarget] at hmoved
          cases hmoved
          exact ⟨_, hlatest, rfl⟩

/-- No update is lost in a run in which no call writes over what another changed since it got the message. -/
theorem updates_kept (h : mailbox.Reachable (fun s e => UpToDate s e) s) :
    Kept s ∧ ∀ e t, UpToDate s e → mailbox.step s e = some t → Undisturbed s e t :=
  ⟨kept_of_reachable h, fun _ _ hok hstep => step_undisturbed h hok hstep⟩

end Kept

section Runs

def inbox : Str false := ⟨ofText "inbox", by decide⟩

def archive : Str false := ⟨ofText "archive", by decide⟩

def ada : Str false := ⟨ofText "ada@example.org", by decide⟩

def note : Message :=
  { id := ⟨ofText "m1", by decide⟩, threadId := ⟨ofText "m1", by decide⟩, folder := inbox, sender := ada, recipient := ada
    subject := ⟨[], by decide⟩, body := ⟨[], by decide⟩, sentAt := 0, flags := ⟨false, false, false⟩ }

/-- A mailbox with one new message. -/
def delivered : Mailbox := { store := [⟨emailNs, "m1", note.value, messageMeta⟩], tasks := [], history := [] }

def readNote : MessageCall := .read (.object [(ofText "id", jsText "m1")])

def archiveNote : MessageCall := .move (.object [(ofText "id", jsText "m1"), (ofText "folder", .string archive.1)])

/-- The move runs between the get and the append of the read. -/
def crossed : List (PoolEvent Fault MessageCall) :=
  [.call readNote, .call archiveNote, .serve 0 .none, .serve 1 .none, .serve 1 .none, .serve 0 .none]

def finished (s : Mailbox) : Bool := s.tasks.all fun x => match x.2 with | .done (.ok _) => true | _ => false

/-- The note is seen and the move is done, and the note is back in the inbox. -/
def reverted (s : Mailbox) : Bool :=
  finished s && moved s "m1" == some archive && (message? s.store "m1").any fun m => m.folder == inbox && m.flags.seen

theorem read_reverts_move : ¬ ∀ s, mailbox.Reachable System.free s → finished s = true → Kept s := by
  intro hclaim
  have hinit : mailbox.init delivered := ⟨trivial, rfl, rfl⟩
  have hrun : (mailbox.exec System.free delivered crossed).map reverted = some true := by decide
  obtain ⟨s, hs, hf⟩ := System.exec_spec hinit hrun
  rw [reverted, Bool.and_eq_true, Bool.and_eq_true, beq_iff_eq, Option.any_eq_true] at hf
  obtain ⟨⟨hdone, hmoved⟩, m, hm, hinbox⟩ := hf
  obtain ⟨m', hm', hfolder⟩ := (hclaim s hs hdone "m1").2 archive hmoved
  obtain rfl : m = m' := Option.some.inj (hm.symm.trans hm')
  rw [hfolder, Bool.and_eq_true] at hinbox
  exact absurd hinbox.1 (by decide)

theorem updates_kept_note : ∃ s, mailbox.Reachable (fun s e => UpToDate s e) s ∧
    (message? s.store "m1").map (fun m => (m.folder, m.flags.seen)) = some (archive, true) ∧ Kept s := by
  have hinit : mailbox.init delivered := ⟨trivial, rfl, rfl⟩
  have hrun : (mailbox.exec (fun s e => UpToDate s e) delivered [.call readNote, .serve 0 .none, .serve 0 .none,
      .call archiveNote, .serve 1 .none, .serve 1 .none]).map (fun s => decide ((message? s.store "m1").map
        (fun m => (m.folder, m.flags.seen)) = some (archive, true))) = some true := by decide
  obtain ⟨s, hs, hf⟩ := System.exec_spec hinit hrun
  exact ⟨s, hs, of_decide_eq_true hf, (updates_kept hs).1⟩

end Runs

end VivimOmega.Email

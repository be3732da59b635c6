import VivimOmega.Director.Rules

/-! Rules created, enabled and disabled in any interleaving. -/

namespace VivimOmega.Director

open Library Library.Json Vault Nlcl

section Calls

inductive RuleCall
  | rule (now : ℕ) (payload : Value)
  | registry (payload : Value)

inductive RuleResult
  | created (c : Created)
  | registry (r : Registry)

def handle (U : Unicode) : RuleCall → Process Request Reply (Except String RuleResult)
  | .rule now payload => (directorRule U now payload >>= fun c => pure (.created c) : Handler RuleResult).run
  | .registry payload => (directorRegistry payload >>= fun r => pure (.registry r) : Handler RuleResult).run

abbrev Rulebook := Pool Request Reply (Except String RuleResult) Log Fault RuleCall

/-- The rule operations over a vault that holds anything. -/
def rulebook (U : Unicode) : System Rulebook (PoolEvent Fault RuleCall) := Pool.system port (handle U) fun _ => True

/-- What a call appends: a creation its own rule, the registry a rule that it got. -/
def Asks : RuleCall → List ((q : Request) × Reply q) → Request → Prop
  | .rule _ payload, _, q => ∀ ns id data metaData, q = .append ns id data metaData → ns = automationNs ∧
      ∃ input rule, validateRuleInput "director.rule@1" payload = .ok input ∧ data = RuleData.value rule ∧
        rule.id = ofText id ∧ rule.event = input.event ∧ rule.action = input.action
  | .registry _, past, q => ∀ ns id data metaData, q = .append ns id data metaData → ns = automationNs ∧
      ∃ ruleId got rule enabled, id = toText ruleId ∧ ⟨.get automationNs id, .ok got⟩ ∈ past ∧
        asRule "director.registry@1" ruleId got.data = some rule ∧ data = RuleData.value { rule with enabled := enabled }

/-- A creation that succeeds was told so by the vault. -/
def Ends : RuleCall → List ((q : Request) × Reply q) → Except String RuleResult → Prop
  | .rule .., past, r => ∀ c, r = .ok (.created c) →
      ∃ data metaData rev, ⟨.append automationNs c.ruleId data metaData, .ok rev⟩ ∈ past
  | .registry _, _, r => ∀ c, r ≠ .ok (.created c)

variable (U : Unicode)

lemma directorRule_meets (now : ℕ) (payload : Value) : (directorRule U now payload).run.Meets (Asks (.rule now payload))
    (fun past r => ∀ c, r = .ok c → ∃ data metaData rev, ⟨.append automationNs c.ruleId data metaData, .ok rev⟩ ∈ past)
    [] := by
  rw [directorRule]
  refine meets_lift (fun _ _ _ h => nomatch h) fun input hinput => ?_
  refine meets_vaultCall (fun _ _ _ _ h => nomatch h) (fun _ _ h => nomatch h) fun rows => ?_
  refine meets_lift (fun _ _ _ h => nomatch h) fun ruleId _ => ?_
  refine meets_vaultCall ?_ (fun _ _ h => nomatch h) fun rev => ?_
  · intro ns id data metaData h
    obtain ⟨rfl, rfl, rfl, rfl⟩ := Request.append.inj h
    exact ⟨rfl, input, _, hinput, rfl, rfl, rfl, rfl⟩
  · intro c hc
    obtain rfl := Except.ok.inj hc
    exact ⟨_, _, rev, List.mem_append_right _ List.mem_cons_self⟩

lemma listRules_meets (payload : Value) (rows : List Listed) (past : List ((q : Request) × Reply q)) :
    (listRules rows).run.Meets (Asks (.registry payload)) (fun _ _ => True) past := by
  induction rows generalizing past with
  | nil => trivial
  | cons row rest ih =>
    rw [listRules]
    refine meets_vaultCall (fun _ _ _ _ h => nomatch h) (fun _ => trivial) fun got => ?_
    exact meets_bind (ih _) (fun _ _ _ => trivial) fun _ _ _ => trivial

lemma flipRule_meets (payload : Value) (enabled : Bool) (ruleId : JsString) (past : List ((q : Request) × Reply q)) :
    (flipRule enabled ruleId).run.Meets (Asks (.registry payload)) (fun _ _ => True) past := by
  rw [flipRule]
  refine meets_call (fun _ _ _ _ h => nomatch h) fun r => ?_
  cases r with
  | error f => trivial
  | ok got =>
    dsimp only
    cases hrule : asRule "director.registry@1" ruleId got.data with
    | none => trivial
    | some rule =>
      dsimp only
      split_ifs
      · trivial
      · refine meets_vaultCall ?_ (fun _ => trivial) fun rev => trivial
        intro ns id data metaData h
        obtain ⟨rfl, rfl, rfl, rfl⟩ := Request.append.inj h
        exact ⟨rfl, ruleId, got, rule, enabled, rfl, List.mem_append_right _ List.mem_cons_self, hrule, rfl⟩

lemma directorRegistry_meets (payload : Value) :
    (directorRegistry payload).run.Meets (Asks (.registry payload)) (fun _ _ => True) [] := by
  rw [directorRegistry]
  refine meets_lift (fun _ _ => trivial) fun _ _ => ?_
  split
  · refine meets_lift (fun _ _ => trivial) fun _ _ => ?_
    refine meets_vaultCall (fun _ _ _ _ h => nomatch h) (fun _ => trivial) fun rows => ?_
    exact meets_bind (listRules_meets payload _ _) (fun _ _ _ => trivial) fun _ _ _ => trivial
  · refine meets_lift (fun _ _ => trivial) fun enabled _ => ?_
    refine meets_lift (fun _ _ => trivial) fun ruleId _ => ?_
    exact flipRule_meets payload enabled ruleId _

lemma handle_meets (c : RuleCall) : (handle U c).Meets (Asks c) (Ends c) [] := by
  cases c with
  | rule now payload =>
    rw [handle]
    refine meets_bind (directorRule_meets U now payload) (fun _ _ _ _ h => nomatch h) fun l made hmade c hc => ?_
    obtain rfl := RuleResult.created.inj (Except.ok.inj hc)
    exact hmade made rfl
  | registry payload =>
    rw [handle]
    exact meets_bind (directorRegistry_meets payload) (fun _ _ _ _ h => nomatch h) fun _ _ _ _ h => nomatch h

end Calls

section Kept

variable {U : Unicode} {s t : Rulebook}

def created? : RuleCall × Process Request Reply (Except String RuleResult) → Option (Value × Created)
  | (.rule _ payload, .done (.ok (.created c))) => some (payload, c)
  | _ => none

/-- The payload and the answer of a task, where it is a creation that succeeded. -/
def made (s : Rulebook) (n : ℕ) : Option (Value × Created) := s.tasks[n]?.bind created?

/-- No two creations return the same id. -/
def Distinct (s : Rulebook) : Prop :=
  ∀ n m x y, n ≠ m → made s n = some x → made s m = some y → x.2.ruleId ≠ y.2.ruleId

/-- The rule that a row holds under an id is the one that was asked for. -/
def Holds (id : String) (input : RuleInput) (r : Revision) : Prop :=
  ∃ rule, asRule "director.registry@1" (ofText id) r.data = some rule ∧ rule.event = input.event ∧
    rule.action = input.action

/-- Under the id that a creation returned, the rule that it was asked for is read. -/
def Readable (s : Rulebook) : Prop :=
  ∀ n payload c, made s n = some (payload, c) →
    ∃ input r, validateRuleInput "director.rule@1" payload = .ok input ∧
      s.store.latest? automationNs c.ruleId = some r ∧ Holds c.ruleId input r

/-- When a creation is appended, there is nothing yet under its id. -/
def Unoccupied (s : Rulebook) : PoolEvent Fault RuleCall → Bool
  | .call _ => true
  | .serve n _ =>
    match s.tasks[n]? with
    | some (.rule _ _, .ask (.append ns id _ _) _) => s.store.rev ns id = 0
    | _ => true

/-- A served request wrote the rule of a creation. -/
def Creates (id : String) (input : RuleInput) (v : Served Request Reply Fault RuleCall) : Prop :=
  ∃ now payload r, v.call = .rule now payload ∧ validateRuleInput "director.rule@1" payload = .ok input ∧
    written v = some r ∧ r.ns = automationNs ∧ r.id = id

/-- What a creation wrote is all that is under its id, and no other creation wrote there. -/
structure Owned (s : Rulebook) : Prop where
  holds : ∀ v ∈ s.history, ∀ id input, Creates id input v →
    s.store.revisions automationNs id ≠ [] ∧ ∀ r ∈ s.store.revisions automationNs id, Holds id input r
  alone : ∀ v ∈ s.history, ∀ w ∈ s.history, ∀ id input input', Creates id input v → Creates id input' w →
    v.task = w.task

lemma asRule_id {op : String} {id : JsString} {v : Value} {rule : RuleData} (h : asRule op id v = some rule) :
    rule.id = id ∧ optionalProperty v "id" = .string id := by
  rw [asRule] at h
  split_ifs at h
  split at h
  · rename_i s hs
    split_ifs at h with hid
    obtain ⟨input, _, h⟩ := Option.bind_eq_some_iff.mp h
    obtain ⟨enabled, _, h⟩ := Option.bind_eq_some_iff.mp h
    obtain ⟨summary, _, h⟩ := Option.bind_eq_some_iff.mp h
    obtain ⟨createdAt, _, h⟩ := Option.bind_eq_some_iff.mp h
    obtain rfl := Option.some.inj h
    exact ⟨rfl, hid ▸ hs⟩
  · cases h

/-- A row that the registry writes holds the rule that was there. -/
lemma holds_flipped {id : String} {input : RuleInput} {r : Revision} (h : Holds id input r) {ruleId : JsString}
    {rule : RuleData} (hrule : asRule "director.registry@1" ruleId r.data = some rule) (enabled : Bool) (metaData : Value) :
    Holds id input ⟨automationNs, id, RuleData.value { rule with enabled := enabled }, metaData⟩ := by
  obtain ⟨rule', hrule', hevent, haction⟩ := h
  have hsame : ofText id = ruleId := by
    have hids := (asRule_id hrule').2.symm.trans (asRule_id hrule).2
    exact Value.string.inj hids
  rw [hsame, hrule] at hrule'
  obtain rfl := Option.some.inj hrule'
  have hid : ruleId = { rule with enabled := enabled }.id := (asRule_id hrule).1.symm
  refine ⟨{ rule with enabled := enabled }, ?_, hevent, haction⟩
  rw [hsame, hid]
  exact asRule_value _ _

lemma creates_written {id : String} {input : RuleInput} {v : Served Request Reply Fault RuleCall}
    (h : Creates id input v) : written v ≠ none := by
  obtain ⟨_, _, r, _, _, hr, _⟩ := h
  rw [hr]
  exact Option.some_ne_none r

/-- A creation that is appended where there is nothing owns what is there. -/
lemma owned_creation {v : Served Request Reply Fault RuleCall} {r : Revision} {past : List ((q : Request) × Reply q)}
    {now : ℕ} {payload : Value} (hown : Owned s) (hcall : v.call = .rule now payload) (hwritten : written v = some r)
    (hasks : Asks (.rule now payload) past v.exchange.1) (hfree : s.store.revisions automationNs r.id = [])
    (hstore : t.store = s.store ++ [r]) (hhistory : t.history = s.history ++ [v]) : Owned t := by
  obtain ⟨_, hq⟩ := written_eq hwritten
  obtain ⟨hns, input, rule, hinput, hdata, hid, hevent, haction⟩ := hasks _ _ _ _ hq
  have hnew : ∀ id input', Creates id input' v → id = r.id ∧ input' = input := by
    rintro id input' ⟨now', payload', r', hcall', hinput', hr', _, hid'⟩
    obtain ⟨_, rfl⟩ := RuleCall.rule.inj (hcall.symm.trans hcall')
    obtain rfl := Option.some.inj (hwritten.symm.trans hr')
    exact ⟨hid'.symm, Except.ok.inj (hinput'.symm.trans hinput)⟩
  have hold : ∀ w ∈ s.history, ∀ id input', Creates id input' w → id ≠ r.id := by
    rintro w hw id input' hc rfl
    exact (hown.holds w hw _ input' hc).1 hfree
  refine ⟨fun w hw id input' hc => ?_, fun w hw x hx id input' input'' hc hd => ?_⟩
  · rw [hstore, Log.revisions_append]
    rw [hhistory, List.mem_append, List.mem_singleton] at hw
    obtain hw | rfl := hw
    · rw [if_neg (fun hkey => hold w hw id input' hc hkey.2.symm), List.append_nil]
      exact hown.holds w hw id input' hc
    · obtain ⟨rfl, rfl⟩ := hnew id input' hc
      rw [if_pos ⟨hns, rfl⟩, hfree, List.nil_append]
      refine ⟨List.cons_ne_nil _ _, fun r' hr' => ?_⟩
      rw [List.mem_singleton.mp hr']
      refine ⟨rule, ?_, hevent, haction⟩
      rw [hdata, ← hid]
      exact asRule_value _ rule
  · rw [hhistory, List.mem_append, List.mem_singleton] at hw hx
    obtain hw | rfl := hw
    · obtain hx | rfl := hx
      · exact hown.alone w hw x hx id input' input'' hc hd
      · exact absurd (hnew id input'' hd).1 (hold w hw id input' hc)
    · obtain hx | rfl := hx
      · exact absurd (hnew id input' hc).1 (hold x hx id input'' hd)
      · rfl

lemma owned_flip {v : Served Request Reply Fault RuleCall} {r : Revision} (hown : Owned s) {payload : Value}
    (hcall : v.call = .registry payload) (hflip : ∀ id input, r.id = id →
      (∀ r' ∈ s.store.revisions automationNs id, Holds id input r') → Holds id input r)
    (hstore : t.store = s.store ++ [r]) (hhistory : t.history = s.history ++ [v]) : Owned t := by
  have hnew : ∀ id input, ¬ Creates id input v := by
    rintro id input ⟨_, _, _, hcall', _⟩
    cases hcall.symm.trans hcall'
  refine ⟨fun w hw id input hc => ?_, fun w hw x hx id input input' hc hd => ?_⟩
  · rw [hstore, Log.revisions_append]
    rw [hhistory, List.mem_append, List.mem_singleton] at hw
    obtain hw | rfl := hw
    · obtain ⟨hne, hall⟩ := hown.holds w hw id input hc
      refine ⟨List.append_ne_nil_of_left_ne_nil hne _, fun r' hr' => ?_⟩
      obtain hr' | hr' := List.mem_append.mp hr'
      · exact hall r' hr'
      · split_ifs at hr' with hkey
        · rw [List.mem_singleton.mp hr']
          exact hflip id input hkey.2 hall
        · cases hr'
    · exact absurd hc (hnew id input)
  · rw [hhistory, List.mem_append, List.mem_singleton] at hw hx
    obtain hw | rfl := hw
    · obtain hx | rfl := hx
      · exact hown.alone w hw x hx id input input' hc hd
      · exact absurd hd (hnew id input')
    · exact absurd hc (hnew id input)

lemma owned_idle {v : Served Request Reply Fault RuleCall} (hown : Owned s) (hwritten : written v = none)
    (hstore : t.store = s.store) (hhistory : t.history = s.history ++ [v]) : Owned t := by
  have hold : ∀ w ∈ t.history, ∀ id input, Creates id input w → w ∈ s.history := by
    intro w hw id input hc
    rw [hhistory, List.mem_append, List.mem_singleton] at hw
    obtain hw | rfl := hw
    · exact hw
    · exact absurd hwritten (creates_written hc)
  refine ⟨fun w hw id input hc => ?_, fun w hw x hx id input input' hc hd => ?_⟩
  · rw [hstore]
    exact hown.holds w (hold w hw id input hc) id input hc
  · exact hown.alone w (hold w hw id input hc) x (hold x hx id input' hd) id input input' hc hd

/-- A step at which no creation writes over a row keeps the rows owned. -/
lemma owned_step {ok : Rulebook → PoolEvent Fault RuleCall → Prop} {e : PoolEvent Fault RuleCall}
    (hs : (rulebook U).Reachable ok s) (hown : Owned s) (hok : Unoccupied s e = true)
    (hstep : (rulebook U).step s e = some t) : Owned t := by
  obtain ⟨c, rfl, rfl⟩ | ⟨n, fault, c, q, next, rfl, htask, rfl⟩ := Pool.step_cases hstep
  · exact ⟨hown.holds, hown.alone⟩
  have hstore := advance_store s n c fault q next
  cases hwritten : written (⟨n, c, fault, ⟨q, (port.serve fault s.store q).1⟩⟩ : Served Request Reply Fault RuleCall) with
  | none =>
    rw [hwritten, Option.toList_none, List.append_nil] at hstore
    exact owned_idle hown hwritten hstore rfl
  | some r =>
    rw [hwritten, Option.toList_some] at hstore
    obtain ⟨hasks, _⟩ := Pool.task_meets (handle_meets U) hs htask
    obtain ⟨_, hq⟩ := written_eq hwritten
    cases c with
    | rule now payload =>
      have hfree : s.store.revisions r.ns r.id = [] := by
        obtain rfl : q = .append r.ns r.id r.data r.metaData := hq
        rw [Unoccupied, htask] at hok
        exact List.eq_nil_of_length_eq_zero (of_decide_eq_true hok)
      rw [(hasks _ _ _ _ hq).1] at hfree
      exact owned_creation hown rfl hwritten hasks hfree hstore rfl
    | registry payload =>
      obtain ⟨hns, ruleId, got, rule, enabled, hid, hgot, hrule, hdata⟩ := hasks _ _ _ _ hq
      refine owned_flip hown rfl (fun id input hkey hall => ?_) hstore rfl
      obtain ⟨v, hv, _, hx⟩ := Pool.mem_history hgot
      obtain ⟨r', hr', hsame⟩ := (served_log hs v hv).1 _ _ _ hx
      rw [hkey] at hr'
      have hflipped := holds_flipped (hall r' hr') (hsame ▸ hrule) enabled r.metaData
      obtain ⟨ns, rid, data, metaData⟩ := r
      cases hns
      cases hkey
      cases hdata
      exact hflipped

lemma owned_of_reachable (h : (rulebook U).Reachable (fun s e => Unoccupied s e) s) : Owned s := by
  induction h with
  | start hinit =>
    obtain ⟨_, _, hhistory⟩ := hinit
    refine ⟨fun v hv => ?_, fun v hv => ?_⟩
    · rw [hhistory] at hv
      cases hv
    · rw [hhistory] at hv
      cases hv
  | next hs hok hstep ih => exact owned_step hs ih hok hstep

/-- A creation that succeeded wrote its rule under the id that it returns. -/
lemma creates_of_made {ok : Rulebook → PoolEvent Fault RuleCall → Prop} (hs : (rulebook U).Reachable ok s) {n : ℕ}
    {payload : Value} {c : Created} (h : made s n = some (payload, c)) :
    ∃ v ∈ s.history, v.task = n ∧ ∃ input, validateRuleInput "director.rule@1" payload = .ok input ∧
      Creates c.ruleId input v := by
  obtain ⟨⟨call, p⟩, htask, hcreated⟩ := Option.bind_eq_some_iff.mp h
  obtain ⟨now, rfl, rfl⟩ : ∃ now, call = .rule now payload ∧ p = .done (.ok (.created c)) := by
    rw [created?.eq_def] at hcreated
    split at hcreated
    · obtain ⟨rfl, rfl⟩ := Prod.mk.inj (Option.some.inj hcreated)
      rename_i now _ _ heq
      obtain ⟨rfl, rfl⟩ := Prod.mk.inj heq
      exact ⟨now, rfl, rfl⟩
    · cases hcreated
  obtain ⟨data, metaData, rev, happend⟩ := Pool.task_meets (handle_meets U) hs htask c rfl
  obtain ⟨v, hv, hn, hx⟩ := Pool.mem_history happend
  have hfault := (served_log hs v hv).2 _ _ hx
  have hcall := Pool.history_call hs v hv
  rw [hn, htask] at hcall
  obtain ⟨past, hasks⟩ := Pool.served_meets (handle_meets U) hs hv
  rw [← Option.some.inj hcall, hx] at hasks
  obtain ⟨_, input, _, hinput, _⟩ := hasks _ _ _ _ rfl
  refine ⟨v, hv, hn, input, hinput, now, payload, ⟨automationNs, c.ruleId, data, metaData⟩, (Option.some.inj hcall).symm,
    hinput, ?_, rfl, rfl⟩
  rw [written, hx, hfault]
  rfl

end Kept

section Runs

def creation (address : String) : RuleCall :=
  .rule 0 (.object [(ofText "when", .object [(ofText "event", .string triggerEvent), (ofText "from", .null)]),
    (ofText "then", .object [(ofText "op", .string actionOp),
      (ofText "payload", .object [(ofText "to", jsText address)])])])

def empty : Rulebook := { store := [], tasks := [], history := [] }

def forAda : RuleCall := creation "ada@example.org"

def forBob : RuleCall := creation "bob@example.org"

/-- Both creations query the ids before either is appended. -/
def crossed : List (PoolEvent Fault RuleCall) :=
  [.call forAda, .call forBob, .serve 0 .none, .serve 1 .none, .serve 0 .none, .serve 1 .none]

def ruleIdOf (s : Rulebook) (n : ℕ) : Option String := (made s n).map fun x => x.2.ruleId

end Runs

end VivimOmega.Director

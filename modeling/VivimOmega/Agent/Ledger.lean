import VivimOmega.Agent.Exec
import VivimOmega.Host.Wiring
import VivimOmega.Vault.Readers

/-! The rows that attempts leave over the boots of a host on one vault, and the cursor that counts them. -/

namespace VivimOmega.Agent

open Library Library.Json Law

section Rows

def execLedgerId (causationId : String) : String := "exec:" ++ causationId

/-- An attempt leaves an `ExecRow`; what else is written is data. -/
inductive RowData
  | exec (row : ExecRow)
  | other (data : Value)

def RowData.agentId : RowData → Except String Value
  | .exec row => .ok (.string row.agentId)
  | .other data => property data "agentId"

/-- A revision in the namespace of the agents. -/
structure AgentRow where
  id : String
  data : RowData

variable (rows : List AgentRow)

def lineage (id : String) : List RowData := (rows.filter fun r => r.id = id).map AgentRow.data

def newest (id : String) : Option (ℕ × RowData) :=
  (lineage rows id).getLast?.map fun data => ((lineage rows id).length, data)

/-- The ids that the prefix filter of the vault admits. -/
def isExecId (id : String) : Bool := Vault.like (Vault.escapeLike "exec:".toList ++ ['%']) id.toList

def execIds : List String := ((rows.map AgentRow.id).filter isExecId).dedup.insertionSort (· ≤ ·)

structure LedgerCursor where
  attempts : ℕ
  latest : Option (String × ℕ)

def snapshotCursorCap : ℕ := 200

def countRow (agentId : JsString) (cursor : LedgerCursor) (id : String) : Except String LedgerCursor :=
  match newest rows id with
  | none => return cursor
  | some (rev, data) => do
    match ← data.agentId with
    | .string found =>
      if found = agentId then
        return ⟨cursor.attempts + 1, if cursor.latest.all fun l => l.2 < rev then some (id, rev) else cursor.latest⟩
      else return cursor
    | _ => return cursor

/-- What `agent.snapshot@1` says of the attempts of an agent. -/
def ledgerCursor (agentId : JsString) : Except String LedgerCursor :=
  ((execIds rows).take snapshotCursorCap).foldlM (countRow rows agentId) ⟨0, none⟩

end Rows

section Boots

/-- An attempt that has ended. -/
structure Made where
  id : String
  agentId : JsString
  row : Option ExecRow
  answered : Bool

/-- It has returned an Outcome, or left its row. -/
def Made.counts (a : Made) : Bool := a.answered || a.row.isSome

/-- The counter of the host starts anew at each boot; the rows stay. The attempts are kept for the statements
only. -/
structure Attempts where
  callSeq : ℕ
  rows : List AgentRow
  flights : ℕ → Option ExecInput
  made : List Made

inductive AttemptEvent
  | call
  | start (input : ExecInput)
  | finish (n : ℕ) (replies : ExecReplies)
  | boot
  | write (id : String) (data : Value)

namespace Attempts

variable (s : Attempts)

def settle (n : ℕ) (input : ExecInput) (replies : ExecReplies) : Attempts :=
  let id := execLedgerId (Host.PortRouter.causation n)
  let attempt := exec replies input
  { s with
    rows := s.rows ++ (attempt.row.map fun row => ⟨id, .exec row⟩).toList
    flights := Function.update s.flights n none
    made := s.made ++ [⟨id, input.agentId, attempt.row, attempt.result.isOk⟩] }

def step : AttemptEvent → Option Attempts
  | .call => some { s with callSeq := s.callSeq + 1 }
  | .start input =>
    some { s with
      callSeq := s.callSeq + 1
      flights := Function.update s.flights (s.callSeq + 1) (some input) }
  | .finish n replies => (s.flights n).map fun input => s.settle n input replies
  | .boot => some { s with callSeq := 0, flights := fun _ => none }
  | .write id data => some { s with rows := s.rows ++ [⟨id, .other data⟩] }

end Attempts

def attempts : System Attempts AttemptEvent where
  init s := s = ⟨0, [], fun _ => none, []⟩
  step := Attempts.step

/-- The id of an attempt has no row when it starts, its agent and the head of its contract are found, and nobody
else writes under the ids of attempts. -/
def Accountable (s : Attempts) : AttemptEvent → Prop
  | .start _ => execLedgerId (Host.PortRouter.causation (s.callSeq + 1)) ∉ s.rows.map AgentRow.id
  | .finish _ replies => replies.agent.isSome = true ∧ replies.head.isSome = true
  | .write id _ => isExecId id = false
  | _ => True

instance : ∀ (s : Attempts) (e : AttemptEvent), Decidable (Accountable s e)
  | _, .call => isTrue trivial
  | _, .start _ => inferInstanceAs (Decidable (_ ∉ _))
  | _, .finish _ _ => inferInstanceAs (Decidable (_ ∧ _))
  | _, .boot => isTrue trivial
  | _, .write _ _ => inferInstanceAs (Decidable (_ = false))

/-- Every attempt that has returned an Outcome has one row, alone under an id of its own, and the cursor counts
what was attempted. -/
structure Ledgered (s : Attempts) : Prop where
  appended : ∀ a ∈ s.made, a.counts = true → ∃ row, a.row = some row ∧ lineage s.rows a.id = [.exec row]
  distinct : ((s.made.filter Made.counts).map Made.id).Nodup
  counted : ∀ agentId, (execIds s.rows).length ≤ snapshotCursorCap → ∃ cursor,
    ledgerCursor s.rows agentId = .ok cursor ∧
      cursor.attempts = s.made.countP fun a => a.counts && a.agentId = agentId

end Boots

section Accounting

variable {r : ExecReplies} {input : ExecInput} {rows : List AgentRow} {s t : Attempts}

lemma ledger_row (r : ExecReplies) (target : Option (JsString × Value)) (row : ExecRow)
    (answer : ℕ → Outcome ExecValue) : (∀ x, (ledger r target row answer).row = some x → x = row) ∧
      ((ledger r target row answer).result.isOk = true → (ledger r target row answer).row.isSome = true) := by
  unfold ledger
  split
  · exact ⟨fun x hx => (Option.some.inj hx).symm, fun _ => rfl⟩
  · refine ⟨fun x hx => ?_, nofun⟩
    split_ifs at hx
    exact (Option.some.inj hx).symm

lemma settle_row (r : ExecReplies) (input : ExecInput) (rev : ℕ) (head : BehaviorContract) (scope : JsString) :
    (∀ x, (settle r input rev head scope).row = some x → x.agentId = input.agentId) ∧
      ((settle r input rev head scope).result.isOk = true → (settle r input rev head scope).row.isSome = true) := by
  unfold settle
  split
  · split_ifs
    · exact ⟨fun x hx => congrArg ExecRow.agentId ((ledger_row _ _ _ _).1 x hx), nofun⟩
    · exact ⟨fun x hx => congrArg ExecRow.agentId ((ledger_row _ _ _ _).1 x hx), (ledger_row _ _ _ _).2⟩
  · exact ⟨fun x hx => congrArg ExecRow.agentId ((ledger_row _ _ _ _).1 x hx), (ledger_row _ _ _ _).2⟩

lemma exec_agentId {row : ExecRow} (h : (exec r input).row = some row) : row.agentId = input.agentId := by
  unfold exec at h
  split at h
  · cases h
  · split at h
    · cases h
    · split at h
      · cases h
      · next hjudge =>
        rw [(ledger_row _ _ _ _).1 row h]
        cases judge_judged hjudge with
        | refused hagent => exact hagent
      · exact (settle_row _ _ _ _ _).1 row h

/-- Once the agent and the contract are found, no Outcome goes without a row. -/
lemma exec_row (hagent : r.agent.isSome = true) (hhead : r.head.isSome = true)
    (h : (exec r input).result.isOk = true) : (exec r input).row.isSome = true := by
  obtain ⟨identity, hidentity⟩ := Option.isSome_iff_exists.mp hagent
  obtain ⟨⟨rev, head⟩, hhead⟩ := Option.isSome_iff_exists.mp hhead
  unfold exec at h ⊢
  rw [hidentity, hhead] at h ⊢
  dsimp only at h ⊢
  split at h
  · cases h
  · exact (ledger_row _ _ _ _).2 h
  · exact (settle_row _ _ _ _ _).2 h

lemma isExecId_execLedgerId (causationId : String) : isExecId (execLedgerId causationId) = true := by
  refine (Vault.like_escapeLike _ _).mpr ?_
  rw [execLedgerId, String.toList_append, List.map_append]
  exact List.prefix_append _ _

lemma execLedgerId_injective : Function.Injective execLedgerId := Text.append_right_injective "exec:"

/-- The rows that the attempts have left. -/
def landedRows (made : List Made) : List AgentRow :=
  made.filterMap fun a => a.row.map fun row => ⟨a.id, .exec row⟩

/-- The rows under the ids of attempts are those of the attempts, under distinct ids, and no attempt under way
has one. -/
structure Accounted (s : Attempts) : Prop where
  rows : s.rows.filter (fun r => isExecId r.id) = landedRows s.made
  distinct : ((landedRows s.made).map AgentRow.id).Nodup
  answered : ∀ a ∈ s.made, a.answered = true → a.row.isSome = true
  owner : ∀ a ∈ s.made, ∀ row, a.row = some row → row.agentId = a.agentId
  flights : ∀ n input, s.flights n = some input →
    execLedgerId (Host.PortRouter.causation n) ∉ s.rows.map AgentRow.id

lemma Accounted.finish (h : Accounted s) {n : ℕ} {replies : ExecReplies} (hflight : s.flights n = some input)
    (hagent : replies.agent.isSome = true) (hhead : replies.head.isSome = true) :
    Accounted (s.settle n input replies) := by
  let id := execLedgerId (Host.PortRouter.causation n)
  have hmade : landedRows (s.settle n input replies).made =
      landedRows s.made ++ ((exec replies input).row.map fun row => ⟨id, .exec row⟩).toList := by
    change List.filterMap _ (s.made ++ [_]) = _
    rw [List.filterMap_append]
    cases hrow : (exec replies input).row with
    | none => simp [landedRows]
    | some row => simp [landedRows, id]
  have hfresh : id ∉ (landedRows s.made).map AgentRow.id := by
    intro hmem
    rw [← h.rows] at hmem
    exact h.flights n input hflight ((List.filter_sublist.map AgentRow.id).subset hmem)
  refine ⟨?_, ?_, ?_, ?_, ?_⟩
  · rw [hmade, ← h.rows]
    change List.filter _ (s.rows ++ _) = _
    rw [List.filter_append]
    congr 1
    apply List.filter_eq_self.mpr
    intro row hrow
    obtain ⟨_, _, rfl⟩ := Option.map_eq_some_iff.mp (Option.mem_toList.mp hrow)
    exact isExecId_execLedgerId _
  · rw [hmade, List.map_append, List.nodup_append']
    refine ⟨h.distinct, ?_, ?_⟩
    · cases (exec replies input).row with
      | none => exact List.nodup_nil
      | some row => exact List.nodup_singleton _
    · intro key hkey hnew
      obtain ⟨row, hrow, rfl⟩ := List.mem_map.mp hnew
      obtain ⟨_, _, rfl⟩ := Option.map_eq_some_iff.mp (Option.mem_toList.mp hrow)
      exact hfresh hkey
  · intro a ha hanswered
    obtain hold | hnew := List.mem_append.mp ha
    · exact h.answered a hold hanswered
    · obtain rfl := List.mem_singleton.mp hnew
      exact exec_row hagent hhead hanswered
  · intro a ha row hrow
    obtain hold | hnew := List.mem_append.mp ha
    · exact h.owner a hold row hrow
    · obtain rfl := List.mem_singleton.mp hnew
      exact exec_agentId hrow
  · intro m other hother hmem
    have hlookup := (Function.update_apply _ _ _ _).symm.trans hother
    split_ifs at hlookup with hm
    obtain ⟨row, hrow, hid⟩ := List.mem_map.mp hmem
    obtain hold | hnew := List.mem_append.mp hrow
    · exact h.flights m other hlookup (hid ▸ List.mem_map_of_mem hold)
    · obtain ⟨_, _, rfl⟩ := Option.map_eq_some_iff.mp (Option.mem_toList.mp hnew)
      exact hm (Host.PortRouter.causation_injective (execLedgerId_injective hid.symm))

lemma accounted_step {e : AttemptEvent} (h : Accounted s) (he : Accountable s e) (hstep : s.step e = some t) :
    Accounted t := by
  cases e with
  | call =>
    cases hstep
    exact ⟨h.rows, h.distinct, h.answered, h.owner, h.flights⟩
  | start input =>
    cases hstep
    refine ⟨h.rows, h.distinct, h.answered, h.owner, fun n other hother => ?_⟩
    have hlookup := (Function.update_apply _ _ _ _).symm.trans hother
    split_ifs at hlookup with hn
    · rw [hn]
      exact he
    · exact h.flights n other hlookup
  | finish n replies =>
    obtain ⟨input, hflight, rfl⟩ := Option.map_eq_some_iff.mp hstep
    exact h.finish hflight he.1 he.2
  | boot =>
    cases hstep
    exact ⟨h.rows, h.distinct, h.answered, h.owner, nofun⟩
  | write id data =>
    cases hstep
    refine ⟨?_, h.distinct, h.answered, h.owner, fun n input hflight hmem => ?_⟩
    · change List.filter _ (s.rows ++ _) = _
      have hother : isExecId id = false := he
      rw [List.filter_append, h.rows]
      simp [hother]
    · obtain ⟨row, hrow, hid⟩ := List.mem_map.mp hmem
      obtain hold | hnew := List.mem_append.mp hrow
      · exact h.flights n input hflight (hid ▸ List.mem_map_of_mem hold)
      · obtain rfl := List.mem_singleton.mp hnew
        have hother : isExecId id = false := he
        rw [show id = execLedgerId _ from hid, isExecId_execLedgerId] at hother
        cases hother

lemma mem_landedRows {made : List Made} {a : Made} {row : ExecRow} (ha : a ∈ made) (hrow : a.row = some row) :
    ⟨a.id, .exec row⟩ ∈ landedRows made :=
  List.mem_filterMap.mpr ⟨a, ha, by rw [hrow]; rfl⟩

/-- A key that stands once selects what stands under it. -/
lemma filter_id_of_nodup {row : AgentRow} (h : (rows.map AgentRow.id).Nodup) (hrow : row ∈ rows) :
    rows.filter (fun r => r.id = row.id) = [row] := by
  induction rows with
  | nil => cases hrow
  | cons first rest ih =>
    obtain ⟨hfirst, hrest⟩ := List.nodup_cons.mp h
    obtain rfl | hrow := List.mem_cons.mp hrow
    · rw [List.filter_cons_of_pos (by simp)]
      congr 1
      apply List.filter_eq_nil_iff.mpr
      intro r hr hid
      exact hfirst (List.mem_map.mpr ⟨r, hr, of_decide_eq_true hid⟩)
    · rw [List.filter_cons_of_neg, ih hrest hrow]
      intro hid
      exact hfirst (List.mem_map.mpr ⟨row, hrow, (of_decide_eq_true hid).symm⟩)

lemma Accounted.lineage (h : Accounted s) {row : AgentRow} (hrow : row ∈ landedRows s.made) :
    lineage s.rows row.id = [row.data] := by
  have hexec : isExecId row.id = true := by
    rw [← h.rows] at hrow
    exact (List.mem_filter.mp hrow).2
  have hfilter : s.rows.filter (fun r => r.id = row.id) = [row] := by
    calc _ = (s.rows.filter fun r => isExecId r.id).filter fun r => r.id = row.id := by
          rw [List.filter_filter]
          apply List.filter_congr
          intro r _
          by_cases hid : r.id = row.id
          · simp [hid, hexec]
          · simp [hid]
      _ = [row] := by
          rw [h.rows]
          exact filter_id_of_nodup h.distinct hrow
  rw [Agent.lineage, hfilter]
  rfl

/-- The ids that are counted are those of the rows that the attempts have left. -/
lemma Accounted.execIds_perm (h : Accounted s) :
    (execIds s.rows).Perm ((landedRows s.made).map AgentRow.id) := by
  have hids : (s.rows.map AgentRow.id).filter isExecId = (landedRows s.made).map AgentRow.id := by
    rw [← h.rows, List.filter_map]
    rfl
  refine (List.perm_insertionSort _ _).trans ?_
  rw [hids, h.distinct.dedup]

/-- Whether the newest row of an id is one of an agent. -/
def owned (rows : List AgentRow) (agentId : JsString) (id : String) : Bool :=
  match newest rows id with
  | some (_, .exec row) => row.agentId = agentId
  | _ => false

lemma countRow_exec {agentId : JsString} {id : String} {rev : ℕ} {row : ExecRow} (cursor : LedgerCursor)
    (h : newest rows id = some (rev, .exec row)) : ∃ next, countRow rows agentId cursor id = .ok next ∧
      next.attempts = cursor.attempts + if owned rows agentId id then 1 else 0 := by
  have hcount : countRow rows agentId cursor id = if row.agentId = agentId then
      .ok ⟨cursor.attempts + 1, if cursor.latest.all fun l => l.2 < rev then some (id, rev) else cursor.latest⟩
      else .ok cursor := by
    simp only [countRow, h, RowData.agentId, ok_bind]
    rfl
  have howned : owned rows agentId id = decide (row.agentId = agentId) := by
    simp only [owned, h]
  rw [hcount, howned]
  by_cases hrow : row.agentId = agentId
  · exact ⟨_, if_pos hrow, by simp [hrow]⟩
  · exact ⟨cursor, if_neg hrow, by simp [hrow]⟩

lemma countRow_foldlM {agentId : JsString} {ids : List String} (cursor : LedgerCursor)
    (h : ∀ id ∈ ids, ∃ rev row, newest rows id = some (rev, .exec row)) : ∃ counted,
      ids.foldlM (countRow rows agentId) cursor = .ok counted ∧
        counted.attempts = cursor.attempts + ids.countP (owned rows agentId) := by
  induction ids generalizing cursor with
  | nil => exact ⟨cursor, rfl, rfl⟩
  | cons id rest ih =>
    obtain ⟨rev, row, hnewest⟩ := h id List.mem_cons_self
    obtain ⟨next, hnext, hattempts⟩ := countRow_exec cursor hnewest
    obtain ⟨counted, hcounted, htotal⟩ := ih next fun i hi => h i (List.mem_cons_of_mem _ hi)
    refine ⟨counted, ?_, ?_⟩
    · rw [List.foldlM_cons, hnext, ok_bind, hcounted]
    · rw [htotal, hattempts, List.countP_cons]
      omega

lemma Accounted.counts_iff (h : Accounted s) {a : Made} (ha : a ∈ s.made) : a.counts = a.row.isSome := by
  cases hrow : a.row.isSome with
  | true => simp [Made.counts, hrow]
  | false =>
    have hanswered : a.answered ≠ true := fun hanswered =>
      absurd ((h.answered a ha hanswered).symm.trans hrow) nofun
    simp [Made.counts, hrow, hanswered]

lemma Accounted.newest (h : Accounted s) {row : AgentRow} (hrow : row ∈ landedRows s.made) :
    newest s.rows row.id = some (1, row.data) := by
  rw [Agent.newest, h.lineage hrow]
  rfl

/-- The rows that an agent is counted are those of its attempts. -/
lemma Accounted.countP_owned (h : Accounted s) (agentId : JsString) :
    (execIds s.rows).countP (owned s.rows agentId) = s.made.countP fun a => a.counts && a.agentId = agentId := by
  rw [h.execIds_perm.countP_eq, List.countP_map, landedRows, List.countP_filterMap]
  apply List.countP_congr
  intro a ha
  rw [h.counts_iff ha]
  cases hrow : a.row with
  | none => simp
  | some row =>
    have hnewest := h.newest (mem_landedRows ha hrow)
    dsimp only at hnewest
    simp [owned, hnewest, h.owner a ha row hrow]

lemma Accounted.ledgered (h : Accounted s) : Ledgered s where
  appended := by
    intro a ha hcounts
    rw [h.counts_iff ha] at hcounts
    obtain ⟨row, hrow⟩ := Option.isSome_iff_exists.mp hcounts
    exact ⟨row, hrow, h.lineage (mem_landedRows ha hrow)⟩
  distinct := by
    have hids : (s.made.filter Made.counts).map Made.id = (landedRows s.made).map AgentRow.id := by
      rw [List.filter_congr fun a ha => h.counts_iff ha, landedRows]
      induction s.made with
      | nil => rfl
      | cons a rest ih =>
        cases hrow : a.row with
        | none => simp [hrow, ih]
        | some row => simp [hrow, ih]
    rw [hids]
    exact h.distinct
  counted := by
    intro agentId hcap
    have hrows : ∀ id ∈ execIds s.rows, ∃ rev row, Agent.newest s.rows id = some (rev, .exec row) := by
      intro id hid
      obtain ⟨row, hrow, rfl⟩ := List.mem_map.mp (h.execIds_perm.mem_iff.mp hid)
      obtain ⟨a, _, ha⟩ := List.mem_filterMap.mp hrow
      obtain ⟨execRow, _, rfl⟩ := Option.map_eq_some_iff.mp ha
      exact ⟨1, execRow, h.newest hrow⟩
    obtain ⟨cursor, hcursor, hattempts⟩ := countRow_foldlM ⟨0, none⟩ hrows
    refine ⟨cursor, ?_, ?_⟩
    · rw [ledgerCursor, List.take_of_length_le hcap]
      exact hcursor
    · rw [hattempts, h.countP_owned]
      exact Nat.zero_add _

/-- Where every attempt starts under an id without a row, finds its agent and its contract, and is alone in
writing under such ids, it is counted once. -/
theorem every_attempt_ledgered (h : attempts.Reachable Accountable s) : Ledgered s := by
  refine Accounted.ledgered (h.invariant ?_ fun s e t _ hs he hstep => accounted_step hs he hstep)
  rintro s rfl
  exact ⟨rfl, List.nodup_nil, nofun, nofun, nofun⟩

/-- Two attempts under way together, and a third one in the next boot, after as many calls. -/
def threeAttempts : List AttemptEvent :=
  [.start (appendTo "email"), .start (appendTo "post"), .finish 2 agreeing, .finish 1 agreeing, .boot, .call, .call,
    .start (appendTo "email"), .finish 3 agreeing]

theorem every_attempt_ledgered_three : ∃ s, attempts.Reachable Accountable s ∧ ∃ cursor,
    ledgerCursor s.rows (ofText "agent_1") = .ok cursor ∧ cursor.attempts = 3 := by
  have hrun : (attempts.exec Accountable ⟨0, [], fun _ => none, []⟩ threeAttempts).map (fun s =>
      decide ((execIds s.rows).length ≤ snapshotCursorCap) &&
        (s.made.countP fun a => a.counts && a.agentId = ofText "agent_1") == 3) = some true := by
    decide +kernel
  obtain ⟨s, hreach, hcounted⟩ := System.exec_spec rfl hrun
  obtain ⟨hcap, hthree⟩ := Bool.and_eq_true_iff.mp hcounted
  obtain ⟨cursor, hcursor, hattempts⟩ :=
    (every_attempt_ledgered hreach).counted (ofText "agent_1") (of_decide_eq_true hcap)
  exact ⟨s, hreach, cursor, hcursor, hattempts.trans (eq_of_beq hthree)⟩

/-- The first attempt of a boot, and the first one of the next. -/
theorem lineage_shared : ∃ s, attempts.Reachable System.free s ∧ (lineage s.rows "exec:c_1").length = 2 ∧
    ¬ Ledgered s := by
  have hrun : (attempts.exec System.free ⟨0, [], fun _ => none, []⟩
      [.start (appendTo "email"), .finish 1 agreeing, .boot, .start (appendTo "email"), .finish 1 agreeing]).map
        (fun s => decide ((lineage s.rows "exec:c_1").length = 2) &&
          !decide ((s.made.filter Made.counts).map Made.id).Nodup) = some true := by
    decide +kernel
  obtain ⟨s, hreach, hshared⟩ := System.exec_spec rfl hrun
  obtain ⟨htwo, hdistinct⟩ := Bool.and_eq_true_iff.mp hshared
  refine ⟨s, hreach, of_decide_eq_true htwo, fun h => ?_⟩
  rw [decide_eq_true h.distinct] at hdistinct
  cases hdistinct

end Accounting

end VivimOmega.Agent

import VivimOmega.Law.Gate
import VivimOmega.Law.Overlay

/-! What is forbidden, over the boots of the law: the table is read back from the vault while the gate answers. -/

namespace VivimOmega.Law

open Library Library.Json

section Boots

/-- The overlay, with the list of the last `law.forbidden.set@1` of each principal that succeeded. -/
structure Enforcement where
  overlay : Overlay
  promised : JsString → OpList

/-- The calls of one boot, a query that lists just some rows, a check of the gate, and the next boot. -/
inductive EnforcementEvent
  | call (e : OverlayEvent)
  | listed (call : ℕ) (ids : List JsString)
  | check (principal op : JsString)
  | boot

/-- The set that a call completes. -/
def Overlay.completes (s : Overlay) : OverlayEvent → Option ForbiddenEntry
  | .reply call none =>
    match s.flights call with
    | some (.setting entry _ true) => some entry
    | _ => none
  | _ => none

/-- Memory is gone; the vault has its rows, and may still get to an append. -/
def Overlay.restart (s : Overlay) : Overlay where
  table := .empty
  loaded := false
  rows := s.rows
  flights call :=
    match s.flights call with
    | some (.setting entry _ false) => some (.abandoned entry)
    | some (.abandoned entry) => some (.abandoned entry)
    | _ => none

namespace Enforcement

variable (s : Enforcement)

def promisedBy (e : OverlayEvent) : JsString → OpList :=
  match s.overlay.completes e with
  | some entry => Function.update s.promised entry.principal entry.ops
  | none => s.promised

def step : EnforcementEvent → Option Enforcement
  | .call e => (s.overlay.step e).map fun o => ⟨o, s.promisedBy e⟩
  | .listed call ids =>
    match s.overlay.flights call with
    | some .querying => some { s with overlay := s.overlay.goOn call ids }
    | _ => none
  | .check _ _ => some s
  | .boot => some { s with overlay := s.overlay.restart }

/-- A check of an op that is on a list that was set is denied. -/
def Denies (consents : ConsentTable) (principal op : JsString) : Prop :=
  op ∈ (s.promised principal).1 → gateDecision consents s.overlay.table principal op = .ok (jsText "deny")

end Enforcement

def enforcement : System Enforcement EnforcementEvent where
  init s := overlay.init s.overlay ∧ s.promised = fun _ => noOps
  step := Enforcement.step

/-- Checks come when the table is loaded, and while no set of the principal without the op is under way; a query leaves
out no list that memory does not have; the law does not go down between an append and its answer. -/
def Guarded (s : Enforcement) : EnforcementEvent → Prop
  | .call e => Apart s.overlay e
  | .listed _ ids => ∀ p ∉ ids, s.overlay.Agrees p
  | .check principal op => s.overlay.loaded = true ∧ ∀ call entry prior applied,
      s.overlay.flights call = some (.setting entry prior applied) → entry.principal = principal → op ∈ entry.ops.1
  | .boot => ∀ call entry prior, s.overlay.flights call ≠ some (.setting entry prior true)

end Boots

section Enforced

variable {s t : Enforcement} {o u : Overlay} {p : JsString}

namespace Overlay

/-- A set of the principal is in the vault, and its answer under way. -/
def Appended (o : Overlay) (p : JsString) : Prop :=
  ∃ call entry prior, o.flights call = some (.setting entry prior true) ∧ entry.principal = p

lemma isForbidden_iff (t : ForbiddenTable) (p op : JsString) : t.isForbidden p op = true ↔ op ∈ (t.listOf p).1 := by
  rw [ForbiddenTable.isForbidden, ForbiddenTable.listOf]
  cases t.get? p with
  | none => simp [noOps]
  | some ops => simp

lemma Consistent.restart (h : o.Consistent) : o.restart.Consistent := by
  have hnone : ∀ c entry prior applied, o.restart.flights c ≠ some (.setting entry prior applied) := by
    intro c entry prior applied hc
    dsimp only [Overlay.restart] at hc
    split at hc <;> cases hc
  have hidle : ∀ c ids, o.restart.flights c ≠ some (.loading ids) := by
    intro c ids hc
    dsimp only [Overlay.restart] at hc
    split at hc <;> cases hc
  refine ⟨h.named, ?_, ?_, ?_, ?_, fun q _ => Or.inr ⟨rfl, rfl⟩⟩
  · exact fun c entry prior applied hc => absurd hc (hnone c entry prior applied)
  · exact fun c _ entry _ prior _ applied _ hc => absurd hc (hnone c entry prior applied)
  · rintro c _ q ⟨d, entry, prior, applied, hd, _⟩
    exact hnone d entry prior applied hd
  · exact fun c ids hc => absurd hc (hidle c ids)

lemma rows_goOn (o : Overlay) (call : ℕ) (ids : List JsString) : (o.goOn call ids).rows = o.rows := by
  cases ids <;> rfl

lemma recorded_congr (h : u.rows = o.rows) (p : JsString) : u.recorded p = o.recorded p := by
  rw [recorded, row?, h, recorded, row?]

lemma rows_set (o : Overlay) (call : ℕ) (principal ops : Value) : (o.set call principal ops).rows = o.rows := by
  unfold Overlay.set
  split <;> rfl

/-- A step records for a principal nothing but a set, whose answer is under way then. -/
lemma step_recorded (h : o.Consistent) {e : OverlayEvent} (hok : Apart o e) (hstep : o.step e = some u) (p : JsString) :
    u.recorded p = o.recorded p ∨ u.Appended p := by
  cases e with
  | set call principal ops =>
    dsimp only [Overlay.step] at hstep
    split_ifs at hstep
    cases hstep
    exact Or.inl (recorded_congr (rows_set o call principal ops) p)
  | applied call now =>
    dsimp only [Overlay.step] at hstep
    split at hstep
    · next entry prior hcall =>
      cases hstep
      by_cases hp : p = entry.principal
      · exact Or.inr ⟨call, entry, prior, (flights_fly _ _ _ _).trans (if_pos rfl), hp.symm⟩
      · refine Or.inl ?_
        change (o.append entry now).recorded p = _
        rw [recorded_append (h.set _ _ _ _ hcall).1, if_neg hp]
    · next entry hcall => exact absurd hcall (hok entry)
    · cases hstep
  | reply call failure =>
    dsimp only [Overlay.step] at hstep
    split at hstep
    · cases hstep
      exact Or.inl rfl
    · cases hstep
      exact Or.inl rfl
    · cases hstep
      exact Or.inl rfl
    · cases hstep
  | reload call =>
    dsimp only [Overlay.step] at hstep
    split_ifs at hstep
    cases hstep
    exact Or.inl rfl
  | query call failure =>
    dsimp only [Overlay.step] at hstep
    split at hstep
    · cases hstep
      exact Or.inl (recorded_congr (rows_goOn o call _) p)
    · cases hstep
      exact Or.inl rfl
    · cases hstep
  | get call failure =>
    dsimp only [Overlay.step] at hstep
    split at hstep
    · next id ids _ =>
      cases hstep
      exact Or.inl (recorded_congr ((rows_goOn _ call ids).trans (load_rest o id failure).2.1) p)
    · cases hstep

/-- A set that is in the vault stays under way until it is answered. -/
lemma Appended.step (h : o.Appended p) {e : OverlayEvent} (hok : Apart o e) (hstep : o.step e = some u) :
    u.Appended p ∨ ∃ entry, o.completes e = some entry ∧ entry.principal = p := by
  obtain ⟨call, entry, prior, hcall, hp⟩ := h
  by_cases hsame : call = e.call
  · subst hsame
    cases e with
    | set call principal ops =>
      dsimp only [Overlay.step] at hstep
      split_ifs at hstep with hfree
      exact absurd (hfree.symm.trans hcall) nofun
    | applied call now =>
      dsimp only [OverlayEvent.call] at hcall
      simp only [Overlay.step, hcall, reduceCtorEq] at hstep
    | reply call failure =>
      cases failure with
      | none =>
        dsimp only [OverlayEvent.call] at hcall
        exact Or.inr ⟨entry, by simp only [completes, hcall], hp⟩
      | some err => exact absurd hcall (hok nofun entry prior)
    | reload call =>
      dsimp only [Overlay.step] at hstep
      split_ifs at hstep with hfree
      exact absurd (hfree.symm.trans hcall) nofun
    | query call failure =>
      dsimp only [OverlayEvent.call] at hcall
      simp only [Overlay.step, hcall, reduceCtorEq] at hstep
    | get call failure =>
      dsimp only [OverlayEvent.call] at hcall
      simp only [Overlay.step, hcall, reduceCtorEq] at hstep
  · exact Or.inl ⟨call, entry, prior, (step_flights hstep hsame).trans hcall, hp⟩

lemma completes_spec (h : o.Consistent) {e : OverlayEvent} {entry : ForbiddenEntry}
    (hdone : o.completes e = some entry) : entry.ops = o.recorded entry.principal := by
  unfold completes at hdone
  split at hdone
  · split at hdone
    · next prior hcall =>
      cases hdone
      exact (h.set _ _ _ _ hcall).2.2.symm
    · cases hdone
  · cases hdone

end Overlay

/-- What was promised is recorded, but for a set that is still to be answered. -/
structure Kept (s : Enforcement) : Prop where
  consistent : s.overlay.Consistent
  recorded : ∀ p, ¬ s.overlay.Appended p → ∀ op ∈ (s.promised p).1, op ∈ (s.overlay.recorded p).1

lemma Kept.call (h : Kept s) {e : OverlayEvent} (hok : Apart s.overlay e)
    (hstep : s.step (.call e) = some t) : Kept t := by
  obtain ⟨u, hu, rfl⟩ := Option.map_eq_some_iff.mp hstep
  refine ⟨h.consistent.step hok hu, fun p hp op hop => ?_⟩
  have hrecorded : u.recorded p = s.overlay.recorded p :=
    (Overlay.step_recorded h.consistent hok hu p).resolve_right hp
  dsimp only [Enforcement.promisedBy] at hop hp ⊢
  rw [hrecorded]
  cases hdone : s.overlay.completes e with
  | none =>
    rw [hdone] at hop
    refine h.recorded p (fun happended => ?_) op hop
    obtain hstill | ⟨entry, hentry, _⟩ := happended.step hok hu
    · exact hp hstill
    · rw [hdone] at hentry
      cases hentry
  | some entry =>
    rw [hdone] at hop
    dsimp only at hop
    by_cases hsame : p = entry.principal
    · rw [hsame, Function.update_self, Overlay.completes_spec h.consistent hdone] at hop
      rw [hsame]
      exact hop
    · rw [Function.update_of_ne hsame] at hop
      refine h.recorded p (fun happended => ?_) op hop
      obtain hstill | ⟨entry', hentry, hp'⟩ := happended.step hok hu
      · exact hp hstill
      · obtain rfl : entry = entry' := Option.some.inj (hdone.symm.trans hentry)
        exact hsame hp'.symm

lemma Kept.listed (h : Kept s) {call : ℕ} {ids : List JsString} (hids : ∀ p ∉ ids, s.overlay.Agrees p)
    (hstep : s.step (.listed call ids) = some t) : Kept t := by
  dsimp only [Enforcement.step] at hstep
  split at hstep
  · next hcall =>
    cases hstep
    refine ⟨h.consistent.goOn (h.consistent.reading call hcall) hids, fun p hp op hop => ?_⟩
    dsimp only at hp hop ⊢
    rw [Overlay.recorded_congr (Overlay.rows_goOn s.overlay call ids)]
    refine h.recorded p (fun happended => ?_) op hop
    obtain ⟨c, entry, prior, hc, hentry⟩ := happended
    exact h.consistent.reading call hcall p ⟨c, entry, prior, true, hc, hentry⟩
  · cases hstep

lemma Kept.boot (h : Kept s) (hok : Guarded s .boot) (hstep : s.step .boot = some t) : Kept t := by
  cases hstep
  refine ⟨h.consistent.restart, fun p _ op hop => h.recorded p ?_ op hop⟩
  rintro ⟨c, entry, prior, hc, _⟩
  exact hok c entry prior hc

lemma Kept.step (h : Kept s) {e : EnforcementEvent} (hok : Guarded s e) (hstep : s.step e = some t) : Kept t := by
  cases e with
  | call e => exact h.call hok hstep
  | listed call ids => exact h.listed hok hstep
  | check principal op =>
    cases hstep
    exact h
  | boot => exact h.boot hok hstep

lemma Kept.init (h : enforcement.init s) : Kept s := by
  obtain ⟨⟨htable, hloaded, hnamed, hflights⟩, hpromised⟩ := h
  have hidle : ∀ c f, s.overlay.flights c ≠ some f := by
    intro c f hc
    rw [hflights] at hc
    cases hc
  refine ⟨⟨hnamed, ?_, ?_, ?_, ?_, ?_⟩, fun p _ op hop => ?_⟩
  · exact fun c _ _ _ hc => absurd hc (hidle c _)
  · exact fun c _ _ _ _ _ _ _ hc => absurd hc (hidle c _)
  · exact fun c hc => absurd hc (hidle c _)
  · exact fun c _ hc => absurd hc (hidle c _)
  · exact fun p _ => Or.inr ⟨hloaded, by rw [htable]; rfl⟩
  · rw [hpromised] at hop
    cases hop

lemma Kept.forbidden (h : Kept s) {op : JsString} (hok : Guarded s (.check p op)) (hop : op ∈ (s.promised p).1) :
    s.overlay.table.isForbidden p op = true := by
  rw [Overlay.isForbidden_iff]
  obtain ⟨hloaded, hsets⟩ := hok
  by_cases hsetting : s.overlay.Setting p
  · obtain ⟨call, entry, prior, applied, hcall, rfl⟩ := hsetting
    rw [(h.consistent.set _ _ _ _ hcall).2.1]
    exact hsets call entry prior applied hcall rfl
  · have happended : ¬ s.overlay.Appended p := fun ⟨call, entry, prior, hcall, hp⟩ =>
      hsetting ⟨call, entry, prior, true, hcall, hp⟩
    obtain hagrees | ⟨hnot, _⟩ := h.consistent.settled p hsetting
    · rw [hagrees]
      exact h.recorded p happended op hop
    · rw [hloaded] at hnot
      cases hnot

/-- Over any number of boots, a guarded check of an op that a set has put on the list of its principal is denied. -/
theorem forbidden_holds (consents : ConsentTable) (s : Enforcement) (h : enforcement.Reachable Guarded s)
    (principal op : JsString) (hcheck : Guarded s (.check principal op)) : s.Denies consents principal op := by
  intro hop
  have hkept : Kept s := h.invariant (fun _ hi => Kept.init hi) (fun _ _ _ _ hs hok hstep => hs.step hok hstep)
  obtain ⟨action, haction, _⟩ := evalPolicy_shipped principal op
  rw [gateDecision_eq consents s.overlay.table haction, hkept.forbidden hcheck hop, if_pos rfl]

end Enforced

section Runs

variable {s : Enforcement} {o : Overlay} {promised : JsString → OpList}

lemma step_call {e : OverlayEvent} (hstep : s.overlay.step e = some o) :
    enforcement.step s (.call e) = some ⟨o, s.promisedBy e⟩ := by
  change (s.overlay.step e).map _ = _
  rw [hstep]
  rfl

/-- A reload of which no row fails. -/
lemma reachable_goOn {ids : List JsString} (hothers : ∀ c ≠ 0, o.flights c = none)
    (h : enforcement.Reachable Guarded ⟨o.goOn 0 ids, promised⟩) :
    ∃ t, enforcement.Reachable Guarded t ∧ (∀ c, t.overlay.flights c = none) ∧ t.overlay.loaded = true ∧
      t.promised = promised := by
  induction ids generalizing o with
  | nil =>
    refine ⟨_, h, fun c => (Overlay.flights_fly _ _ _ _).trans ?_, rfl, rfl⟩
    split_ifs with hc
    · rfl
    · exact hothers c hc
  | cons id ids ih =>
    have hloading : (o.goOn 0 (id :: ids)).flights 0 = some (.loading (id :: ids)) :=
      (Overlay.flights_fly _ _ _ _).trans (if_pos rfl)
    have hstep : (o.goOn 0 (id :: ids)).step (.get 0 none) = some (((o.goOn 0 (id :: ids)).load id none).goOn 0 ids) := by
      dsimp only [Overlay.step]
      rw [hloading]
    have hguard : Guarded ⟨o.goOn 0 (id :: ids), promised⟩ (.call (.get 0 none)) := fun hfailed => absurd rfl hfailed
    refine ih (fun c hc => ?_) (h.next hguard (step_call hstep))
    rw [(Overlay.load_rest _ id none).1]
    exact (Overlay.flights_fly _ _ _ _).trans ((if_neg hc).trans (hothers c hc))

/-- The law goes down, and comes back with what was promised. -/
lemma reachable_boot (h : enforcement.Reachable Guarded s) (hidle : ∀ c, s.overlay.flights c = none) :
    ∃ t, enforcement.Reachable Guarded t ∧ (∀ c, t.overlay.flights c = none) ∧ t.overlay.loaded = true ∧
      t.promised = s.promised := by
  have hdown : ∀ c, s.overlay.restart.flights c = none := by
    intro c
    dsimp only [Overlay.restart]
    rw [hidle c]
  have hboot : Guarded s .boot := by
    intro c entry prior hc
    rw [hidle c] at hc
    cases hc
  have hbooted : enforcement.Reachable Guarded ⟨s.overlay.restart, s.promised⟩ := h.next hboot rfl
  have hreload : Guarded ⟨s.overlay.restart, s.promised⟩ (.call (.reload 0)) := by
    intro c entry prior applied hc
    rw [hdown c] at hc
    cases hc
  have hquerying : enforcement.Reachable Guarded ⟨s.overlay.restart.fly 0 (some .querying), s.promised⟩ := by
    exact hbooted.next hreload (step_call (if_pos (hdown 0)))
  have hquery : Guarded ⟨s.overlay.restart.fly 0 (some .querying), s.promised⟩ (.call (.query 0 none)) := trivial
  refine reachable_goOn (fun c hc => ?_) (hquerying.next hquery rfl)
  exact (Overlay.flights_fly _ _ _ _).trans ((if_neg hc).trans (hdown c))

/-- A set that nothing disturbs. -/
lemma reachable_set (h : enforcement.Reachable Guarded s) (hidle : ∀ c, s.overlay.flights c = none)
    {entry : ForbiddenEntry} (hname : entry.principal ≠ []) :
    ∃ t, enforcement.Reachable Guarded t ∧ (∀ c, t.overlay.flights c = none) ∧
      t.promised = Function.update s.promised entry.principal entry.ops := by
  let o := { s.overlay with table := s.overlay.table.replace entry.principal entry.ops }
  let setting := o.fly 1 (some (.setting entry (s.overlay.table.get? entry.principal) false))
  let appended := (setting.append entry .zero).fly 1 (some (.setting entry (s.overlay.table.get? entry.principal) true))
  have hset : Guarded s (.call (setEvent 1 entry)) := by
    intro c f hc
    rw [hidle c] at hc
    cases hc
  have hsetting : enforcement.Reachable Guarded ⟨setting, s.promised⟩ := by
    refine h.next hset (step_call ?_)
    exact (if_pos (hidle 1)).trans (congrArg some (set_entry _ _ hname))
  have hone : setting.flights 1 = some (.setting entry (s.overlay.table.get? entry.principal) false) :=
    (Overlay.flights_fly _ _ _ _).trans (if_pos rfl)
  have happlied : Guarded ⟨setting, s.promised⟩ (.call (.applied 1 .zero)) := by
    intro e he
    dsimp only at he
    rw [hone] at he
    cases he
  have happended : enforcement.Reachable Guarded ⟨appended, s.promised⟩ := by
    refine hsetting.next happlied (step_call ?_)
    dsimp only [Overlay.step]
    rw [hone]
  have htwo : appended.flights 1 = some (.setting entry (s.overlay.table.get? entry.principal) true) :=
    (Overlay.flights_fly _ _ _ _).trans (if_pos rfl)
  have hreply : Guarded ⟨appended, s.promised⟩ (.call (.reply 1 none)) := fun hfailed => absurd rfl hfailed
  have hanswered : appended.step (.reply 1 none) = some (appended.fly 1 none) := by
    dsimp only [Overlay.step]
    rw [htwo]
  refine ⟨_, happended.next hreply (step_call hanswered), fun c => ?_, ?_⟩
  · dsimp only
    refine (Overlay.flights_fly _ _ _ _).trans ?_
    split_ifs with hc
    · rfl
    · refine (Overlay.flights_fly _ _ _ _).trans ((if_neg hc).trans ?_)
      exact (Overlay.flights_fly _ _ _ _).trans ((if_neg hc).trans (hidle c))
  · dsimp only [Enforcement.promisedBy, Overlay.completes]
    rw [htwo]

def newEnforcement : Enforcement := ⟨emptyOverlay, fun _ => noOps⟩

lemma newEnforcement_init : enforcement.init newEnforcement := ⟨emptyOverlay_init, rfl⟩

/-- A set, a boot, and a check. -/
theorem forbidden_holds_boot : ∃ s, enforcement.Reachable Guarded s ∧
    ofText "chat.open@1" ∈ (s.promised (ofText "user:alice")).1 ∧
    gateDecision .empty s.overlay.table (ofText "user:alice") (ofText "chat.open@1") = .ok (jsText "deny") := by
  have hname : openingSet.principal ≠ [] := by decide
  obtain ⟨t, ht, hidle, hpromised⟩ := reachable_set (.start newEnforcement_init) (fun _ => rfl) hname
  obtain ⟨u, hu, hquiet, hloaded, hkept⟩ := reachable_boot ht hidle
  have hop : ofText "chat.open@1" ∈ (u.promised (ofText "user:alice")).1 := by
    have hlist : u.promised (ofText "user:alice") = openingSet.ops := by
      rw [hkept, hpromised]
      exact Function.update_self _ _ _
    rw [hlist]
    exact List.mem_singleton_self _
  have hcheck : Guarded u (.check (ofText "user:alice") (ofText "chat.open@1")) := by
    refine ⟨hloaded, fun c entry prior applied hc => ?_⟩
    rw [hquiet c] at hc
    cases hc
  exact ⟨u, hu, hop, forbidden_holds .empty u hu _ _ hcheck hop⟩

/-- After the second boot the row of the principal cannot be read, and the reload is done without it. -/
def skippedRow : List EnforcementEvent :=
  [.call (setEvent 1 openingSet), .call (.applied 1 .zero), .call (.reply 1 none), .boot, .call (.reload 0),
    .call (.query 0 none), .call (.get 0 (some "DEGRADED"))]

theorem forbidden_forgotten : ¬ ∀ consents s, enforcement.Reachable System.free s → ∀ principal op,
    s.Denies consents principal op := by
  intro h
  have hrun : (enforcement.exec System.free newEnforcement skippedRow).map (fun s => s.overlay.loaded &&
      decide ((s.promised (ofText "user:alice")).1 = [ofText "chat.open@1"]) &&
      !s.overlay.table.isForbidden (ofText "user:alice") (ofText "chat.open@1")) = some true := by
    decide
  obtain ⟨s, hreach, hs⟩ := System.exec_spec newEnforcement_init hrun
  simp only [Bool.and_eq_true, decide_eq_true_eq, Bool.not_eq_true'] at hs
  obtain ⟨⟨_, hpromised⟩, hforbidden⟩ := hs
  have hdenied := h .empty s hreach (ofText "user:alice") (ofText "chat.open@1") (by rw [hpromised]; exact List.mem_singleton_self _)
  obtain ⟨action, haction, hundenied⟩ := evalPolicy_undenied (by decide : ofText "omega.attacker" ≠ ofText "user:alice")
    (ofText "chat.open@1")
  have hempty : (ConsentTable.empty.hasMatchingGrant (ofText "user:alice") (ofText "chat.open@1")).isSome = false := rfl
  rw [gateDecision_eq _ _ haction, hforbidden, hempty] at hdenied
  cases hask : isText (optionalProperty action "decision") "require-consent" with
  | true =>
    rw [hask] at hdenied
    exact absurd (Value.string.inj (Except.ok.inj hdenied)) (by decide)
  | false =>
    rw [hask] at hdenied
    have hdecision : optionalProperty action "decision" = jsText "deny" := Except.ok.inj hdenied
    rw [hdecision] at hundenied
    exact absurd hundenied (by decide)

end Runs

end VivimOmega.Law

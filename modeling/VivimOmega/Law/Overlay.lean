import VivimOmega.Law.Forbidden

/-! The overlay's calls in any order: sets that are applied, reported and rolled back, and reloads that read
the vault row by row. -/

namespace VivimOmega.Law

open Library Library.Json

section Calls

/-- A call under way. A set waits for its append, a reload for the ids and then for each row; the append of a
set that was told of a failure may still come. -/
inductive OverlayFlight
  | setting (entry : ForbiddenEntry) (prior : Option OpList) (applied : Bool)
  | abandoned (entry : ForbiddenEntry)
  | querying
  | loading (ids : List JsString)

structure Overlay where
  table : ForbiddenTable
  loaded : Bool
  rows : OrderedMap JsString (List Value)
  flights : ℕ → Option OverlayFlight

inductive OverlayEvent
  | set (call : ℕ) (principal ops : Value)
  | applied (call : ℕ) (now : Number)
  | reply (call : ℕ) (failure : Option String)
  | reload (call : ℕ)
  | query (call : ℕ) (failure : Option String)
  | get (call : ℕ) (failure : Option String)

def OverlayEvent.call : OverlayEvent → ℕ
  | .set call _ _ | .applied call _ | .reply call _ | .reload call | .query call _ | .get call _ => call

namespace Overlay

variable (s : Overlay)

def fly (call : ℕ) (flight : Option OverlayFlight) : Overlay :=
  { s with flights := Function.update s.flights call flight }

def row? (principal : JsString) : Option Value := (s.rows.get? principal).bind List.getLast?

/-- The list of the latest record, and no operations where there is none. -/
def recorded (principal : JsString) : OpList :=
  (((s.row? principal).bind fromForbiddenRecord).map ForbiddenEntry.ops).getD noOps

/-- The synchronous part of `law.forbidden.set@1`: what the payload does not allow changes nothing. -/
def set (call : ℕ) (principal ops : Value) : Overlay :=
  match requireName principal, requireOps ops with
  | .ok p, .ok list =>
    { s with table := s.table.replace p list }.fly call (some (.setting ⟨p, list⟩ (s.table.get? p) false))
  | _, _ => s

def rollback (principal : JsString) (prior : Option OpList) : Overlay :=
  { s with table := match prior with
    | none => s.table.clear principal
    | some ops => s.table.replace principal ops }

def append (entry : ForbiddenEntry) (now : Number) : Overlay :=
  let rows := (s.rows.get? entry.principal).getD [] ++ [toRecord now entry]
  { s with rows := s.rows.set entry.principal rows }

/-- A row of the reload: one that cannot be read, or is malformed, is skipped. -/
def load (id : JsString) (failure : Option String) : Overlay :=
  match failure, (s.row? id).bind fromForbiddenRecord with
  | none, some entry => { s with table := s.table.replace entry.principal entry.ops }
  | _, _ => s

/-- The reload goes on with the rows that are left, or is done. -/
def goOn (call : ℕ) : List JsString → Overlay
  | [] => { s with loaded := true }.fly call none
  | ids => s.fly call (some (.loading ids))

def step : OverlayEvent → Option Overlay
  | .set call principal ops => if s.flights call = none then some (s.set call principal ops) else none
  | .applied call now =>
    match s.flights call with
    | some (.setting entry prior false) =>
      some ((s.append entry now).fly call (some (.setting entry prior true)))
    | some (.abandoned entry) => some ((s.append entry now).fly call none)
    | _ => none
  | .reply call failure =>
    match s.flights call, failure with
    | some (.setting _ _ true), none => some (s.fly call none)
    | some (.setting entry prior true), some _ => some ((s.rollback entry.principal prior).fly call none)
    | some (.setting entry prior false), some _ =>
      some ((s.rollback entry.principal prior).fly call (some (.abandoned entry)))
    | _, _ => none
  | .reload call => if s.flights call = none then some (s.fly call (some .querying)) else none
  | .query call failure =>
    match s.flights call, failure with
    | some .querying, none => some (s.goOn call s.rows.keys)
    | some .querying, some _ => some (s.fly call none)
    | _, _ => none
  | .get call failure =>
    match s.flights call with
    | some (.loading (id :: ids)) => some ((s.load id failure).goOn call ids)
    | _ => none

/-- What is denied in memory is what the vault has recorded. -/
def Agrees (principal : JsString) : Prop := s.table.listOf principal = s.recorded principal

def Quiescent : Prop :=
  s.loaded = true ∧ ∀ call f, s.flights call = some f → ∃ entry, f = .abandoned entry

/-- The rows of a principal are records of it. -/
def Named : Prop := ∀ p rows, s.rows.get? p = some rows → ∀ row ∈ rows,
  ∃ ops, fromForbiddenRecord row = some ⟨p, ops⟩

end Overlay

def overlay : System Overlay OverlayEvent where
  init s := s.table = .empty ∧ s.loaded = false ∧ s.Named ∧ s.flights = fun _ => none
  step := Overlay.step

/-- Sets of one principal, and sets and reloads, do not overlap; an append that is reported failed is never
made; and a row is skipped only where memory has its list already. -/
def Apart (s : Overlay) : OverlayEvent → Prop
  | .set _ principal _ => ∀ call f, s.flights call = some f → (∃ entry, f = .abandoned entry) ∨
      ∃ entry prior applied, f = .setting entry prior applied ∧ requireName principal ≠ .ok entry.principal
  | .reload _ => ∀ call entry prior applied, s.flights call ≠ some (.setting entry prior applied)
  | .applied call _ => ∀ entry, s.flights call ≠ some (.abandoned entry)
  | .reply call failure => failure ≠ none → ∀ entry prior, s.flights call ≠ some (.setting entry prior true)
  | .get call failure => failure ≠ none → ∀ id ids, s.flights call = some (.loading (id :: ids)) → s.Agrees id
  | .query _ _ => True

end Calls

section Agreement

variable {s t : Overlay} {call : ℕ} {entry : ForbiddenEntry} {prior : Option OpList} {applied : Bool}
  {now : Number} {p : JsString}

namespace Overlay

/-- A set of a principal is under way. -/
def Setting (s : Overlay) (p : JsString) : Prop :=
  ∃ call entry prior applied, s.flights call = some (.setting entry prior applied) ∧ entry.principal = p

/-- Memory has the recorded list, or none yet before the first reload is done. -/
def Ready (s : Overlay) (ops : OpList) (p : JsString) : Prop :=
  ops = s.recorded p ∨ s.loaded = false ∧ ops = noOps

structure Consistent (s : Overlay) : Prop where
  named : s.Named
  set : ∀ call entry prior applied, s.flights call = some (.setting entry prior applied) →
    entry.principal ≠ [] ∧ s.table.listOf entry.principal = entry.ops ∧
      if applied then s.recorded entry.principal = entry.ops else s.Ready (prior.getD noOps) entry.principal
  alone : ∀ c d e f prior prior' applied applied', s.flights c = some (.setting e prior applied) →
    s.flights d = some (.setting f prior' applied') → e.principal = f.principal → c = d
  reading : ∀ c, s.flights c = some .querying → ∀ p, ¬ s.Setting p
  loading : ∀ c ids, s.flights c = some (.loading ids) → (∀ p, ¬ s.Setting p) ∧ ∀ p ∉ ids, s.Agrees p
  settled : ∀ p, ¬ s.Setting p → s.Ready (s.table.listOf p) p

lemma recorded_append (hname : entry.principal ≠ []) :
    (s.append entry now).recorded p = if p = entry.principal then entry.ops else s.recorded p := by
  unfold recorded row? append
  dsimp only
  rw [OrderedMap.get?_set]
  split_ifs with hp
  · rw [Option.bind_some, List.getLast?_concat, Option.bind_some, fromForbiddenRecord_toRecord hname]
    rfl
  · rfl

lemma Named.append (h : s.Named) (hname : entry.principal ≠ []) : (s.append entry now).Named := by
  intro p rows hrows row hrow
  dsimp only [Overlay.append] at hrows
  rw [OrderedMap.get?_set] at hrows
  split_ifs at hrows with hp
  · cases hrows
    subst hp
    obtain hold | hnew := List.mem_append.mp hrow
    · cases hget : s.rows.get? entry.principal with
      | none =>
        rw [hget] at hold
        cases hold
      | some old =>
        rw [hget] at hold
        exact h _ old hget row hold
    · obtain rfl := List.mem_singleton.mp hnew
      exact ⟨entry.ops, fromForbiddenRecord_toRecord hname⟩
  · exact h p rows hrows row hrow

lemma Named.row (h : s.Named) {row : Value} (hrow : s.row? p = some row) :
    fromForbiddenRecord row = some ⟨p, s.recorded p⟩ := by
  obtain ⟨rows, hrows, hlast⟩ := Option.bind_eq_some_iff.mp hrow
  obtain ⟨ops, hops⟩ := h p rows hrows row (List.mem_of_getLast? hlast)
  rw [recorded, hrow, Option.bind_some, hops]
  rfl

lemma flights_fly (s : Overlay) (call c : ℕ) (flight : Option OverlayFlight) :
    (s.fly call flight).flights c = if c = call then flight else s.flights c :=
  Function.update_apply _ _ _ _

variable {flight : Option OverlayFlight}

lemma setting_of_fly (h : (s.fly call flight).Setting p)
    (hflight : ∀ entry prior applied, flight ≠ some (.setting entry prior applied)) : s.Setting p := by
  obtain ⟨c, e, prior, applied, hc, hp⟩ := h
  rw [flights_fly] at hc
  split_ifs at hc
  · exact absurd hc (hflight e prior applied)
  · exact ⟨c, e, prior, applied, hc, hp⟩

lemma listOf_rollback (s : Overlay) (p : JsString) (prior : Option OpList) (q : JsString) :
    (s.rollback p prior).table.listOf q = if q = p then prior.getD noOps else s.table.listOf q := by
  cases prior with
  | none => exact ForbiddenTable.listOf_clear s.table p q
  | some ops => exact ForbiddenTable.listOf_replace s.table p ops q

lemma recorded_absent (h : p ∉ s.rows.keys) : s.recorded p = noOps := by
  have hget : s.rows.get? p = none := by
    rw [← Option.not_isSome_iff_eq_none, OrderedMap.get?_isSome]
    exact h
  rw [recorded, row?, hget]
  rfl

/-- A call that sets nothing goes on. -/
lemma Consistent.fly (h : s.Consistent)
    (hcall : ∀ entry prior applied, s.flights call ≠ some (.setting entry prior applied))
    (hflight : ∀ entry prior applied, flight ≠ some (.setting entry prior applied))
    (hquery : flight = some .querying → ∀ p, ¬ s.Setting p)
    (hload : ∀ ids, flight = some (.loading ids) → (∀ p, ¬ s.Setting p) ∧ ∀ p ∉ ids, s.Agrees p) :
    (s.fly call flight).Consistent where
  named := h.named
  set := by
    intro c e prior applied hc
    rw [flights_fly] at hc
    split_ifs at hc
    · exact absurd hc (hflight e prior applied)
    · exact h.set c e prior applied hc
  alone := by
    intro c d e f prior prior' applied applied' hc hd hsame
    rw [flights_fly] at hc hd
    split_ifs at hc hd
    · exact absurd hc (hflight e prior applied)
    · exact absurd hc (hflight e prior applied)
    · exact absurd hd (hflight f prior' applied')
    · exact h.alone c d e f prior prior' applied applied' hc hd hsame
  reading := by
    intro c hc q hq
    rw [flights_fly] at hc
    split_ifs at hc
    · exact hquery hc q (setting_of_fly hq hflight)
    · exact h.reading c hc q (setting_of_fly hq hflight)
  loading := by
    intro c ids hc
    rw [flights_fly] at hc
    split_ifs at hc
    · obtain ⟨hnone, hids⟩ := hload ids hc
      exact ⟨fun q hq => hnone q (setting_of_fly hq hflight), hids⟩
    · obtain ⟨hnone, hids⟩ := h.loading c ids hc
      exact ⟨fun q hq => hnone q (setting_of_fly hq hflight), hids⟩
  settled := by
    intro q hq
    refine h.settled q fun ⟨c, e, prior, applied, hc, hp⟩ => hq ⟨c, e, prior, applied, ?_, hp⟩
    rw [flights_fly, if_neg]
    · exact hc
    · rintro rfl
      exact hcall e prior applied hc

/-- A set is over, with memory ready for its principal. -/
lemma Consistent.settle (h : s.Consistent) (hcall : s.flights call = some (.setting entry prior applied))
    {table : ForbiddenTable} (hother : ∀ q, q ≠ entry.principal → table.listOf q = s.table.listOf q)
    (hready : s.Ready (table.listOf entry.principal) entry.principal)
    (hflight : flight = none ∨ ∃ e, flight = some (.abandoned e)) :
    ({ s with table := table }.fly call flight).Consistent := by
  have hset : ∀ e prior applied, flight ≠ some (.setting e prior applied) := by
    rintro e prior applied rfl
    obtain hnone | ⟨_, hsome⟩ := hflight
    · cases hnone
    · cases hsome
  have hold : ∀ c f, (Overlay.fly { s with table := table } call flight).flights c = some f →
      (∀ e, f ≠ .abandoned e) → c ≠ call ∧ s.flights c = some f := by
    intro c f hc hf
    rw [flights_fly] at hc
    split_ifs at hc with hsame
    · obtain hnone | ⟨e, hsome⟩ := hflight
      · cases hnone.symm.trans hc
      · cases hsome.symm.trans hc
        exact absurd rfl (hf e)
    · exact ⟨hsame, hc⟩
  have hsetting : s.Setting entry.principal := ⟨call, entry, prior, applied, hcall, rfl⟩
  refine ⟨h.named, ?_, ?_, ?_, ?_, ?_⟩
  · intro c e prior' applied' hc
    obtain ⟨hne, hc⟩ := hold c _ hc nofun
    obtain ⟨hname, hlist, hrest⟩ := h.set c e prior' applied' hc
    refine ⟨hname, ?_, hrest⟩
    refine (hother _ fun hsame => hne ?_).trans hlist
    exact h.alone c call e entry prior' prior applied' applied hc hcall hsame
  · intro c d e f prior prior' applied applied' hc hd hsame
    exact h.alone c d e f prior prior' applied applied' (hold c _ hc nofun).2 (hold d _ hd nofun).2 hsame
  · intro c hc
    exact absurd hsetting (h.reading c (hold c _ hc nofun).2 _)
  · intro c ids hc
    exact absurd hsetting ((h.loading c ids (hold c _ hc nofun).2).1 _)
  · intro q hq
    by_cases hp : q = entry.principal
    · rw [hp]
      exact hready
    · refine (hother q hp).symm ▸ h.settled q fun ⟨c, e, prior', applied', hc, hname⟩ => ?_
      refine hq ⟨c, e, prior', applied', ?_, hname⟩
      rw [flights_fly, if_neg]
      · exact hc
      · rintro rfl
        cases hcall.symm.trans hc
        exact hp hname.symm

/-- A row is read: memory has its list afterwards, and the other lists as before. -/
lemma listOf_load (hnamed : s.Named) (hready : s.Ready (s.table.listOf p) p) {failure : Option String}
    (hfailure : failure ≠ none → s.Agrees p) (q : JsString) :
    (s.load p failure).table.listOf q = if q = p then s.recorded p else s.table.listOf q := by
  have hskip : s.Agrees p → s.table.listOf q = if q = p then s.recorded p else s.table.listOf q := by
    intro hagrees
    split_ifs with hq
    · rw [hq, hagrees]
    · rfl
  cases failure with
  | some err => exact hskip (hfailure nofun)
  | none =>
    cases hrow : s.row? p with
    | none =>
      have hload : s.load p none = s := by
        unfold load
        rw [hrow]
        rfl
      rw [hload]
      refine hskip ?_
      have hrecorded : s.recorded p = noOps := by
        rw [recorded, hrow]
        rfl
      obtain hagrees | ⟨_, hempty⟩ := hready
      · exact hagrees
      · rw [Agrees, hempty, hrecorded]
    | some row =>
      have hload : s.load p none = { s with table := s.table.replace p (s.recorded p) } := by
        unfold load
        rw [hrow, Option.bind_some, hnamed.row hrow]
      rw [hload]
      exact ForbiddenTable.listOf_replace s.table p (s.recorded p) q

lemma load_rest (s : Overlay) (p : JsString) (failure : Option String) :
    (s.load p failure).flights = s.flights ∧ (s.load p failure).rows = s.rows ∧
      (s.load p failure).loaded = s.loaded := by
  unfold load
  split <;> exact ⟨rfl, rfl, rfl⟩

lemma Consistent.load (h : s.Consistent) (hnone : ∀ q, ¬ s.Setting q) {failure : Option String}
    (hfailure : failure ≠ none → s.Agrees p) :
    (s.load p failure).Consistent ∧ (s.load p failure).Agrees p ∧
      ∀ q, s.Agrees q → (s.load p failure).Agrees q := by
  have hlist := listOf_load h.named (h.settled p (hnone p)) hfailure
  obtain ⟨hflights, hrows, hloaded⟩ := load_rest s p failure
  have hrecorded : ∀ q, (s.load p failure).recorded q = s.recorded q := fun q => by
    rw [recorded, row?, hrows, recorded, row?]
  have hsetting : ∀ q, ¬ (s.load p failure).Setting q := by
    rintro q ⟨c, e, prior, applied, hc, hq⟩
    rw [hflights] at hc
    exact hnone q ⟨c, e, prior, applied, hc, hq⟩
  have hagrees : ∀ q, s.Agrees q → (s.load p failure).Agrees q := by
    intro q hq
    rw [Agrees, hlist, hrecorded]
    split_ifs with hp
    · rw [hp]
    · exact hq
  have hp : (s.load p failure).Agrees p := by
    rw [Agrees, hlist, hrecorded, if_pos rfl]
  refine ⟨⟨?_, ?_, ?_, ?_, ?_, ?_⟩, hp, hagrees⟩
  · rw [Named, hrows]
    exact h.named
  · intro c e prior applied hc
    exact absurd ⟨c, e, prior, applied, hc, rfl⟩ (hsetting e.principal)
  · intro c d e f prior prior' applied applied' hc
    exact absurd ⟨c, e, prior, applied, hc, rfl⟩ (hsetting e.principal)
  · exact fun _ _ => hsetting
  · intro c ids hc
    rw [hflights] at hc
    exact ⟨hsetting, fun q hq => hagrees q ((h.loading c ids hc).2 q hq)⟩
  · intro q _
    rw [Ready, hlist, hrecorded, hloaded]
    split_ifs with hq
    · exact Or.inl (by rw [hq])
    · exact h.settled q (hnone q)

/-- The reload goes on: what it has left behind agrees. -/
lemma Consistent.goOn (h : s.Consistent) (hnone : ∀ q, ¬ s.Setting q) {ids : List JsString}
    (hids : ∀ q ∉ ids, s.Agrees q) : (s.goOn call ids).Consistent := by
  have hfree : ∀ entry prior applied, s.flights call ≠ some (.setting entry prior applied) := by
    intro e prior applied hc
    exact hnone e.principal ⟨call, e, prior, applied, hc, rfl⟩
  cases ids with
  | cons id rest =>
    refine h.fly hfree nofun nofun fun ids hload => ?_
    cases hload
    exact ⟨hnone, hids⟩
  | nil =>
    have hdone : ({ s with loaded := true } : Overlay).Consistent := by
      refine ⟨h.named, ?_, h.alone, h.reading, h.loading, fun q _ => Or.inl (hids q List.not_mem_nil)⟩
      intro c e prior applied hc
      exact absurd ⟨c, e, prior, applied, hc, rfl⟩ (hnone e.principal)
    exact hdone.fly hfree nofun nofun nofun

/-- A set begins, where no other set of its principal and no reload is under way. -/
lemma Consistent.start (h : s.Consistent) {principal ops : Value} (hfree : s.flights call = none)
    (hok : Apart s (.set call principal ops)) : (s.set call principal ops).Consistent := by
  unfold Overlay.set
  split
  on_goal 2 => exact h
  next p list hp _ =>
  have hother : ∀ c e prior applied, s.flights c = some (.setting e prior applied) → e.principal ≠ p := by
    intro c e prior applied hc hsame
    obtain ⟨_, hab⟩ | ⟨e', prior', applied', hset, hne⟩ := hok c _ hc
    · cases hab
    · cases hset
      exact hne (hsame ▸ hp)
  have hnone : ¬ s.Setting p := fun ⟨c, e, prior, applied, hc, hsame⟩ => hother c e prior applied hc hsame
  have hname : p ≠ [] := requireName_named hp
  have hlist : ∀ q, (s.table.replace p list).listOf q = if q = p then list else s.table.listOf q :=
    ForbiddenTable.listOf_replace s.table p list
  refine ⟨h.named, ?_, ?_, ?_, ?_, ?_⟩
  · intro c e prior applied hc
    rw [flights_fly] at hc
    split_ifs at hc
    · cases hc
      exact ⟨hname, (hlist p).trans (if_pos rfl), h.settled p hnone⟩
    · obtain ⟨hne, hold, hrest⟩ := h.set c e prior applied hc
      exact ⟨hne, (hlist _).trans ((if_neg (hother c e prior applied hc)).trans hold), hrest⟩
  · intro c d e f prior prior' applied applied' hc hd hsame
    rw [flights_fly] at hc hd
    split_ifs at hc hd with hcc hdd hdd
    · rw [hcc, hdd]
    · cases hc
      exact absurd hsame.symm (hother d f prior' applied' hd)
    · cases hd
      exact absurd hsame (hother c e prior applied hc)
    · exact h.alone c d e f prior prior' applied applied' hc hd hsame
  · intro c hc
    rw [flights_fly] at hc
    split_ifs at hc
    · cases hc
    · obtain ⟨_, hab⟩ | ⟨_, _, _, hset, _⟩ := hok c _ hc
      · cases hab
      · cases hset
  · intro c ids hc
    rw [flights_fly] at hc
    split_ifs at hc
    · cases hc
    · obtain ⟨_, hab⟩ | ⟨_, _, _, hset, _⟩ := hok c _ hc
      · cases hab
      · cases hset
  · intro q hq
    have hqp : q ≠ p := by
      rintro rfl
      exact hq ⟨call, _, _, _, (flights_fly _ _ _ _).trans (if_pos rfl), rfl⟩
    have hold : ¬ s.Setting q := by
      rintro ⟨c, e, prior, applied, hc, hsame⟩
      refine hq ⟨c, e, prior, applied, ?_, hsame⟩
      rw [flights_fly, if_neg]
      · exact hc
      · rintro rfl
        cases hfree.symm.trans hc
    refine ((hlist q).trans (if_neg hqp)).symm ▸ h.settled q hold

/-- The append of a set is made. -/
lemma Consistent.apply (h : s.Consistent) (hcall : s.flights call = some (.setting entry prior false)) :
    ((s.append entry now).fly call (some (.setting entry prior true))).Consistent := by
  obtain ⟨hname, hlist, _⟩ := h.set call entry prior false hcall
  have hsetting : s.Setting entry.principal := ⟨call, entry, prior, false, hcall, rfl⟩
  have hrecorded : ∀ q, (s.append entry now).recorded q =
      if q = entry.principal then entry.ops else s.recorded q := fun q => recorded_append hname
  have hsettings : ∀ q, s.Setting q →
      ((s.append entry now).fly call (some (.setting entry prior true))).Setting q := by
    rintro q ⟨c, e, prior', applied', hc, hsame⟩
    by_cases hcc : c = call
    · subst hcc
      cases hcall.symm.trans hc
      exact ⟨c, entry, prior, true, (flights_fly _ _ _ _).trans (if_pos rfl), hsame⟩
    · exact ⟨c, e, prior', applied', (flights_fly _ _ _ _).trans ((if_neg hcc).trans hc), hsame⟩
  refine ⟨h.named.append hname, ?_, ?_, ?_, ?_, ?_⟩
  · intro c e prior' applied' hc
    rw [flights_fly] at hc
    split_ifs at hc with hcc
    · cases hc
      exact ⟨hname, hlist, (hrecorded _).trans (if_pos rfl)⟩
    · obtain ⟨hne, hold, hrest⟩ := h.set c e prior' applied' hc
      have hother : e.principal ≠ entry.principal := fun hsame =>
        hcc (h.alone c call e entry prior' prior applied' false hc hcall hsame)
      refine ⟨hne, hold, ?_⟩
      change if applied' = true then (s.append entry now).recorded _ = _ else
        _ = (s.append entry now).recorded _ ∨ _
      rw [hrecorded, if_neg hother]
      exact hrest
  · intro c d e f prior₁ prior₂ applied₁ applied₂ hc hd hsame
    rw [flights_fly] at hc hd
    split_ifs at hc hd with hcc hdd hdd
    · rw [hcc, hdd]
    · cases hc
      exact hcc.trans (h.alone call d _ f prior prior₂ false applied₂ hcall hd hsame)
    · cases hd
      exact (h.alone c call e _ prior₁ prior applied₁ false hc hcall hsame).trans hdd.symm
    · exact h.alone c d e f prior₁ prior₂ applied₁ applied₂ hc hd hsame
  · intro c hc
    rw [flights_fly] at hc
    split_ifs at hc
    · cases hc
    · exact absurd hsetting (h.reading c hc _)
  · intro c ids hc
    rw [flights_fly] at hc
    split_ifs at hc
    · cases hc
    · exact absurd hsetting ((h.loading c ids hc).1 _)
  · intro q hq
    have hold : ¬ s.Setting q := fun hset => hq (hsettings q hset)
    have hqp : q ≠ entry.principal := by
      rintro rfl
      exact hold hsetting
    change _ = (s.append entry now).recorded q ∨ _
    rw [hrecorded, if_neg hqp]
    exact h.settled q hold

lemma Consistent.step (h : s.Consistent) {e : OverlayEvent} (hok : Apart s e) (hstep : s.step e = some t) :
    t.Consistent := by
  cases e with
  | set call principal ops =>
    dsimp only [Overlay.step] at hstep
    split_ifs at hstep with hfree
    cases hstep
    exact h.start hfree hok
  | applied call now =>
    dsimp only [Overlay.step] at hstep
    split at hstep
    · next hcall =>
      cases hstep
      exact h.apply hcall
    · next entry hcall => exact absurd hcall (hok entry)
    · cases hstep
  | reply call failure =>
    dsimp only [Overlay.step] at hstep
    cases failure with
    | none =>
      split at hstep
      on_goal 1 =>
        next entry prior hcall _ =>
        cases hstep
        obtain ⟨_, hlist, hrecorded⟩ := h.set _ _ _ _ hcall
        have hready : s.Ready (s.table.listOf entry.principal) entry.principal :=
          Or.inl (hlist.trans hrecorded.symm)
        exact h.settle hcall (fun _ _ => rfl) hready (Or.inl rfl)
      all_goals simp_all
    | some err =>
      cases hflight : s.flights call with
      | none => simp [hflight] at hstep
      | some f =>
        cases f with
        | setting entry prior applied =>
          cases applied with
          | true => exact absurd hflight (hok nofun entry prior)
          | false =>
            simp only [hflight, Option.some.injEq] at hstep
            subst hstep
            obtain ⟨_, _, hprior⟩ := h.set _ _ _ _ hflight
            have hlist := listOf_rollback s entry.principal prior
            have hready : s.Ready ((s.rollback entry.principal prior).table.listOf entry.principal)
                entry.principal := by
              rw [hlist, if_pos rfl]
              exact hprior
            exact h.settle hflight (fun q hq => (hlist q).trans (if_neg hq)) hready (Or.inr ⟨entry, rfl⟩)
        | abandoned entry => simp [hflight] at hstep
        | querying => simp [hflight] at hstep
        | loading ids => simp [hflight] at hstep
  | reload call =>
    dsimp only [Overlay.step] at hstep
    split_ifs at hstep with hfree
    cases hstep
    have hnone : ∀ p, ¬ s.Setting p := fun p ⟨c, e, prior, applied, hc, _⟩ => hok c e prior applied hc
    exact h.fly (by simp [hfree]) nofun (fun _ => hnone) nofun
  | query call failure =>
    dsimp only [Overlay.step] at hstep
    cases hflight : s.flights call with
    | none => simp [hflight] at hstep
    | some f =>
      cases f with
      | querying =>
        have hnone := h.reading call hflight
        cases failure with
        | some err =>
          simp only [hflight, Option.some.injEq] at hstep
          subst hstep
          exact h.fly (by simp [hflight]) nofun nofun nofun
        | none =>
          simp only [hflight, Option.some.injEq] at hstep
          subst hstep
          refine h.goOn hnone fun q hq => ?_
          obtain hagrees | ⟨_, hempty⟩ := h.settled q (hnone q)
          · exact hagrees
          · rw [Agrees, hempty, recorded_absent hq]
      | setting entry prior applied => simp [hflight] at hstep
      | abandoned entry => simp [hflight] at hstep
      | loading ids => simp [hflight] at hstep
  | get call failure =>
    dsimp only [Overlay.step] at hstep
    split at hstep
    · next id ids hcall =>
      cases hstep
      obtain ⟨hnone, hids⟩ := h.loading _ _ hcall
      obtain ⟨hload, hid, hkept⟩ := h.load hnone fun hfailure => hok hfailure id ids hcall
      refine hload.goOn ?_ fun q hq => ?_
      · rintro q ⟨c, e, prior, applied, hc, hq⟩
        rw [(load_rest s id failure).1] at hc
        exact hnone q ⟨c, e, prior, applied, hc, hq⟩
      · by_cases hqid : q = id
        · rw [hqid]
          exact hid
        · exact hkept q (hids q fun hmem => (List.mem_cons.mp hmem).elim hqid hq)
    · cases hstep

end Overlay

/-- Where calls are apart, memory and vault agree whenever no call is under way. -/
theorem overlay_agrees (h : overlay.Reachable Apart s) (hquiet : s.Quiescent) (p : JsString) : s.Agrees p := by
  have hconsistent : s.Consistent := by
    refine h.invariant ?_ ?_
    · rintro s ⟨htable, hloaded, hnamed, hflights⟩
      have hnone : ∀ c, s.flights c = none := fun c => by rw [hflights]
      refine ⟨hnamed, ?_, ?_, ?_, ?_, ?_⟩
      · simp [hnone]
      · simp [hnone]
      · simp [hnone]
      · simp [hnone]
      · intro q _
        refine Or.inr ⟨hloaded, ?_⟩
        rw [htable]
        rfl
    · intro s e t _ hs hok hstep
      exact hs.step hok hstep
  obtain ⟨hloaded, hflights⟩ := hquiet
  have hnone : ¬ s.Setting p := by
    rintro ⟨c, e, prior, applied, hc, _⟩
    obtain ⟨_, habandoned⟩ := hflights c _ hc
    cases habandoned
  obtain hagrees | ⟨hnot, _⟩ := hconsistent.settled p hnone
  · exact hagrees
  · rw [hloaded] at hnot
    cases hnot

def emptyOverlay : Overlay := ⟨.empty, false, .empty, fun _ => none⟩

lemma emptyOverlay_init : overlay.init emptyOverlay :=
  ⟨rfl, rfl, nofun, rfl⟩

def only (op : JsString) (h : op ≠ []) : OpList :=
  ⟨[op], by simpa using h, List.nodup_singleton op, List.pairwise_singleton keyLe op⟩

def openingSet : ForbiddenEntry := ⟨ofText "user:alice", only (ofText "chat.open@1") (by decide)⟩

def appendingSet : ForbiddenEntry := ⟨ofText "user:alice", only (ofText "chat.append@1") (by decide)⟩

def setEvent (call : ℕ) (entry : ForbiddenEntry) : OverlayEvent :=
  .set call (.string entry.principal) (.array (entry.ops.1.map .string))

lemma set_entry (s : Overlay) (call : ℕ) (hname : entry.principal ≠ []) :
    s.set call (.string entry.principal) (.array (entry.ops.1.map .string)) =
      { s with table := s.table.replace entry.principal entry.ops }.fly call
        (some (.setting entry (s.table.get? entry.principal) false)) := by
  rw [Overlay.set, requireName_string hname, requireOps_listed]

def loadedOverlay : Overlay := (emptyOverlay.fly 0 (some .querying)).goOn 0 []

def settingOverlay : Overlay :=
  { loadedOverlay with table := loadedOverlay.table.replace openingSet.principal openingSet.ops }.fly 1
    (some (.setting openingSet none false))

def appliedOverlay : Overlay :=
  (settingOverlay.append openingSet .zero).fly 1 (some (.setting openingSet none true))

/-- One set after the first reload, appended and reported. -/
theorem overlay_agrees_set : overlay.Reachable Apart (appliedOverlay.fly 1 none) ∧
    (appliedOverlay.fly 1 none).Quiescent ∧ ∀ p, (appliedOverlay.fly 1 none).Agrees p := by
  have hreload : Apart emptyOverlay (.reload 0) := nofun
  have hqueried := (System.Reachable.start emptyOverlay_init).next hreload rfl
  have hloaded : overlay.Reachable Apart loadedOverlay :=
    hqueried.next (e := OverlayEvent.query 0 none) trivial rfl
  have hidle : ∀ c, loadedOverlay.flights c = none := by
    intro c
    rw [loadedOverlay, Overlay.goOn, Overlay.flights_fly]
    split_ifs with hc
    · rfl
    · exact (Overlay.flights_fly _ _ _ _).trans (if_neg hc)
  have hset : Apart loadedOverlay (setEvent 1 openingSet) := by
    intro c f hf
    rw [hidle] at hf
    cases hf
  have hsetting : overlay.Reachable Apart settingOverlay := by
    refine hloaded.next hset ?_
    change (if loadedOverlay.flights 1 = none then some (loadedOverlay.set 1 _ _) else none) = _
    rw [if_pos (hidle 1), set_entry _ _ (by decide)]
    rfl
  have happlied : overlay.Reachable Apart appliedOverlay :=
    hsetting.next (e := OverlayEvent.applied 1 .zero) (fun _ h => nomatch h) rfl
  have hrun : overlay.Reachable Apart (appliedOverlay.fly 1 none) :=
    happlied.next (e := OverlayEvent.reply 1 none) (fun h => absurd rfl h) rfl
  have hquiet : (appliedOverlay.fly 1 none).Quiescent := by
    refine ⟨rfl, fun c f hf => ?_⟩
    have hnone : (appliedOverlay.fly 1 none).flights c = none := by
      rw [Overlay.flights_fly]
      split_ifs with hc
      · rfl
      · refine (Overlay.flights_fly _ _ _ _).trans ((if_neg hc).trans ?_)
        exact (Overlay.flights_fly _ _ _ _).trans ((if_neg hc).trans (hidle c))
    cases hnone.symm.trans hf
  exact ⟨hrun, hquiet, overlay_agrees hrun hquiet⟩

/-- The first set of a principal fails after the second one is done: memory is rolled back to no list. -/
def lostUpdate : List OverlayEvent :=
  [.reload 0, .query 0 none, setEvent 1 openingSet, setEvent 2 appendingSet,
    .applied 2 .zero, .reply 2 none, .reply 1 (some "DEGRADED")]

def Few (n : ℕ) (_ : Overlay) (e : OverlayEvent) : Prop := e.call < n

instance (n : ℕ) (s : Overlay) (e : OverlayEvent) : Decidable (Few n s e) := inferInstanceAs (Decidable (_ < _))

namespace Overlay

@[simp] lemma goOn_flights (s : Overlay) (ids : List JsString) {c : ℕ} (hc : c ≠ call) :
    (s.goOn call ids).flights c = s.flights c := by
  cases ids <;> exact (flights_fly _ _ _ _).trans (if_neg hc)

lemma set_flights (s : Overlay) (principal ops : Value) {c : ℕ} (hc : c ≠ call) :
    (s.set call principal ops).flights c = s.flights c := by
  unfold Overlay.set
  split
  · exact (flights_fly _ _ _ _).trans (if_neg hc)
  · rfl

/-- A step leaves the other calls alone. -/
lemma step_flights {e : OverlayEvent} (hstep : s.step e = some t) {c : ℕ} (hc : c ≠ e.call) :
    t.flights c = s.flights c := by
  cases e with
  | set call principal ops =>
    dsimp only [Overlay.step] at hstep
    split_ifs at hstep
    cases hstep
    exact set_flights s principal ops hc
  | applied call now =>
    dsimp only [Overlay.step] at hstep
    split at hstep
    · cases hstep
      exact (flights_fly _ _ _ _).trans (if_neg hc)
    · cases hstep
      exact (flights_fly _ _ _ _).trans (if_neg hc)
    · cases hstep
  | reply call failure =>
    dsimp only [Overlay.step] at hstep
    split at hstep
    · cases hstep
      exact (flights_fly _ _ _ _).trans (if_neg hc)
    · cases hstep
      exact (flights_fly _ _ _ _).trans (if_neg hc)
    · cases hstep
      exact (flights_fly _ _ _ _).trans (if_neg hc)
    · cases hstep
  | reload call =>
    dsimp only [Overlay.step] at hstep
    split_ifs at hstep
    cases hstep
    exact (flights_fly _ _ _ _).trans (if_neg hc)
  | query call failure =>
    dsimp only [Overlay.step] at hstep
    split at hstep
    · cases hstep
      exact goOn_flights s _ hc
    · cases hstep
      exact (flights_fly _ _ _ _).trans (if_neg hc)
    · cases hstep
  | get call failure =>
    dsimp only [Overlay.step] at hstep
    split at hstep
    · next id ids _ =>
      cases hstep
      exact (goOn_flights _ ids hc).trans (congrFun (load_rest s id failure).1 c)
    · cases hstep

lemma few_flights {n : ℕ} (h : overlay.Reachable (Few n) s) {c : ℕ} (hc : n ≤ c) : s.flights c = none := by
  have hidle : ∀ s, overlay.init s → s.flights c = none := by
    rintro s ⟨_, _, _, hflights⟩
    rw [hflights]
  induction h with
  | start hinit => exact hidle _ hinit
  | @next s e t _ hfew hstep hs =>
    have hne : c ≠ e.call := fun hce => absurd hfew (by rw [Few, ← hce]; omega)
    exact (step_flights hstep hne).trans hs

end Overlay

/-- After a lost update the vault's record is not what is denied. -/
theorem overlay_disagrees :
    ¬ ∀ s, overlay.Reachable System.free s → s.Quiescent → ∀ p, s.Agrees p := by
  intro h
  have hrun : (overlay.exec (Few 3) emptyOverlay lostUpdate).map
      (fun s => s.loaded && (List.range 3).all (fun c =>
          (s.flights c).all fun f => match f with | .abandoned _ => true | _ => false) &&
        decide ((s.table.listOf openingSet.principal).1 = [] ∧
          (s.recorded openingSet.principal).1 = [ofText "chat.append@1"])) = some true := by
    decide
  obtain ⟨t, hreach, hend⟩ := System.exec_spec emptyOverlay_init hrun
  simp only [Bool.and_eq_true, decide_eq_true_eq] at hend
  obtain ⟨⟨hloaded, hidle⟩, hlist, hrecorded⟩ := hend
  have hquiet : t.Quiescent := by
    refine ⟨hloaded, fun c f hf => ?_⟩
    have hc : c < 3 := by
      by_contra hc
      rw [Overlay.few_flights hreach (not_lt.mp hc)] at hf
      cases hf
    have hone := List.all_eq_true.mp hidle c (List.mem_range.mpr hc)
    rw [hf] at hone
    cases f with
    | abandoned entry => exact ⟨entry, rfl⟩
    | setting entry prior applied => cases hone
    | querying => cases hone
    | loading ids => cases hone
  have hagree := h t hreach.free hquiet openingSet.principal
  rw [Overlay.Agrees] at hagree
  rw [hagree, hrecorded] at hlist
  exact absurd hlist (by decide)

end Agreement

end VivimOmega.Law

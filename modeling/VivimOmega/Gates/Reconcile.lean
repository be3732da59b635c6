import VivimOmega.Gates.Watch
import VivimOmega.Library.Lines
import VivimOmega.Library.OrderedMap

/-! The events that the devices have minted, merged by their idempotency keys. -/

namespace VivimOmega.Gates

open Library Library.Json

section Merging

structure Reconciled where
  kept : List WatchEventRow
  merges : List JsString

abbrev Seen := OrderedMap JsString WatchEventRow

def mergeRecord (e : WatchEventRow) : JsString :=
  ofText "merge " ++ e.watchRef ++ ofText ": duplicate idempotencyKey " ++ e.idempotencyKey ++
    ofText " reconciled to first (CP-1, no double-mint)"

def reconcileStep (s : Seen × List JsString) (e : WatchEventRow) : Seen × List JsString :=
  if s.1.has e.idempotencyKey then (s.1, s.2 ++ [mergeRecord e]) else (s.1.set e.idempotencyKey e, s.2)

def reconcile (events : List WatchEventRow) : Reconciled :=
  let s := events.foldl reconcileStep (.empty, [])
  ⟨s.1.values, s.2⟩

variable {events events' : List WatchEventRow} {e k : WatchEventRow}

/-- The events under their keys, of which none occurs twice. -/
structure Keyed (seen : Seen) (events : List WatchEventRow) : Prop where
  own : ∀ x ∈ seen.entries, x.1 = x.2.idempotencyKey
  from_events : ∀ x ∈ seen.entries, x.2 ∈ events
  covered : ∀ e ∈ events, seen.has e.idempotencyKey = true

lemma set_unseen {seen : Seen} {key : JsString} (e : WatchEventRow) (h : ¬ seen.has key = true) :
    (seen.set key e).entries = seen.entries ++ [(key, e)] := by
  unfold OrderedMap.set
  rw [dif_neg h]

lemma keyed_step {s : Seen × List JsString} (h : Keyed s.1 events) : Keyed (reconcileStep s e).1 (events ++ [e]) := by
  obtain ⟨hown, hfrom, hcovered⟩ := h
  unfold reconcileStep
  split_ifs with hseen
  · refine ⟨hown, fun x hx => List.mem_append_left _ (hfrom x hx), ?_⟩
    rw [List.forall_mem_append, List.forall_mem_singleton]
    exact ⟨hcovered, hseen⟩
  · have hentries := set_unseen e hseen
    refine ⟨?_, ?_, ?_⟩
    · rw [hentries, List.forall_mem_append, List.forall_mem_singleton]
      exact ⟨hown, rfl⟩
    · rw [hentries, List.forall_mem_append, List.forall_mem_singleton]
      exact ⟨fun x hx => List.mem_append_left _ (hfrom x hx), List.mem_append_right _ (List.mem_singleton_self e)⟩
    · rw [List.forall_mem_append, List.forall_mem_singleton]
      simp only [OrderedMap.has, OrderedMap.get?_set]
      refine ⟨fun x hx => ?_, by simp⟩
      split_ifs
      · rfl
      · exact hcovered x hx

lemma keyed_reconcile (events : List WatchEventRow) : Keyed (events.foldl reconcileStep (.empty, [])).1 events := by
  induction events using List.reverseRecOn with
  | nil => exact ⟨by simp [OrderedMap.empty], by simp [OrderedMap.empty], by simp⟩
  | append_singleton events e ih =>
    rw [List.foldl_append]
    exact keyed_step ih

lemma kept_mem (h : k ∈ (reconcile events).kept) : k ∈ events := by
  obtain ⟨x, hx, rfl⟩ := List.mem_map.mp h
  exact (keyed_reconcile events).from_events x hx

lemma kept_keys_nodup (events : List WatchEventRow) :
    ((reconcile events).kept.map WatchEventRow.idempotencyKey).Nodup := by
  have hkeys : (reconcile events).kept.map WatchEventRow.idempotencyKey =
      (events.foldl reconcileStep (.empty, [])).1.entries.map Prod.fst := by
    rw [reconcile, OrderedMap.values, List.map_map]
    refine List.map_congr_left fun x hx => ?_
    exact ((keyed_reconcile events).own x hx).symm
  rw [hkeys]
  exact OrderedMap.nodup _

lemma kept_of_mem (h : e ∈ events) : ∃ k ∈ (reconcile events).kept, k.idempotencyKey = e.idempotencyKey := by
  have hcovered := (keyed_reconcile events).covered e h
  obtain ⟨x, hx, hkey⟩ := List.mem_map.mp ((OrderedMap.get?_isSome _ _).mp hcovered)
  exact ⟨x.2, List.mem_map.mpr ⟨x, hx, rfl⟩, ((keyed_reconcile events).own x hx).symm.trans hkey⟩

lemma kept_unique {k' : WatchEventRow} (hk : k ∈ (reconcile events).kept) (hk' : k' ∈ (reconcile events).kept)
    (hkey : k.idempotencyKey = k'.idempotencyKey) : k = k' :=
  List.inj_on_of_nodup_map (kept_keys_nodup events) hk hk' hkey

lemma kept_keys_mem {key : JsString} : key ∈ (reconcile events).kept.map WatchEventRow.idempotencyKey ↔
    key ∈ events.map WatchEventRow.idempotencyKey := by
  constructor
  · intro h
    obtain ⟨k, hk, rfl⟩ := List.mem_map.mp h
    exact List.mem_map_of_mem (kept_mem hk)
  · intro h
    obtain ⟨e, he, rfl⟩ := List.mem_map.mp h
    obtain ⟨k, hk, hkey⟩ := kept_of_mem he
    exact List.mem_map.mpr ⟨k, hk, hkey⟩

/-- Events whose keys differ are all kept. -/
lemma reconcile_nodup (h : (events.map WatchEventRow.idempotencyKey).Nodup) : reconcile events = ⟨events, []⟩ := by
  suffices hfold : (events.foldl reconcileStep (.empty, [])).1.entries = events.map (fun e => (e.idempotencyKey, e)) ∧
      (events.foldl reconcileStep (.empty, [])).2 = [] by
    rw [reconcile, OrderedMap.values, hfold.1, hfold.2, List.map_map]
    simp [Function.comp_def]
  induction events using List.reverseRecOn with
  | nil => exact ⟨rfl, rfl⟩
  | append_singleton events e ih =>
    rw [List.map_append, List.nodup_append] at h
    obtain ⟨hentries, hmerges⟩ := ih h.1
    have hunseen : ¬ (events.foldl reconcileStep (.empty, [])).1.has e.idempotencyKey = true := by
      rw [OrderedMap.has, OrderedMap.get?_isSome, hentries, List.map_map]
      intro hmem
      exact h.2.2 _ hmem _ (by simp) rfl
    rw [List.foldl_append, List.foldl_cons, List.foldl_nil, reconcileStep, if_neg hunseen]
    refine ⟨?_, hmerges⟩
    rw [set_unseen e hunseen, hentries]
    simp

end Merging

section Keys

/-- What the key of a mint is the hash of. -/
def keyText (row : WatchRow) (nowMs : Number) (evidenceRef : JsString) : JsString :=
  if row.dedup = .none then row.id ++ bar :: numberUnits nowMs ++ bar :: evidenceRef
  else row.id ++ bar :: numberUnits (floorQuotient nowMs (windowOf row.dedup))

variable {row row' : WatchRow} {ctx : FireCtx} {e e' : WatchEventRow} {t t' : Number}

lemma fire_ok (h : fireWatch row ctx = .ok e) : e.watchRef = row.id ∧ e.firedAt = ctx.nowMs ∧
    e.evidenceRef = ctx.evidenceRef ∧ e.idempotencyKey = hash53 (keyText row ctx.nowMs ctx.evidenceRef) := by
  unfold fireWatch at h
  split_ifs at h
  cases h
  refine ⟨rfl, rfl, rfl, ?_⟩
  change fireKey row ctx.nowMs ctx.evidenceRef = _
  unfold fireKey keyText idempotencyKey
  split_ifs <;> rfl

lemma bar_numberUnits (n : Number) : bar ∉ numberUnits n :=
  numberUnits_other (c := '|') (by decide) (by decide) (by decide) (by decide) n

lemma keyText_window (h : row.dedup ≠ .none) (t t' : Number) (evidenceRef evidenceRef' : JsString) :
    keyText row t evidenceRef = keyText row t' evidenceRef' ↔
      floorQuotient t (windowOf row.dedup) = floorQuotient t' (windowOf row.dedup) := by
  rw [keyText, keyText, if_neg h, if_neg h]
  simp [numberUnits_injective.eq_iff]

/-- The key text of a watch whose id has no bar tells the watch, and that of one without a window everything. -/
lemma keyText_split (hbar : bar ∉ row.id) (hbar' : bar ∉ row'.id) {evidenceRef evidenceRef' : JsString}
    (h : keyText row t evidenceRef = keyText row' t' evidenceRef') :
    row.id = row'.id ∧ (row.dedup = .none → t = t' ∧ evidenceRef = evidenceRef') := by
  unfold keyText at h
  split_ifs at h with hnone hnone' hnone'
  · simp only [List.append_assoc, List.cons_append] at h
    obtain ⟨hid, hrest⟩ := line_cancel hbar hbar' h
    obtain ⟨htime, hevidence⟩ := line_cancel (bar_numberUnits t) (bar_numberUnits t') hrest
    exact ⟨hid, fun _ => ⟨numberUnits_injective htime, hevidence⟩⟩
  · simp only [List.append_assoc, List.cons_append] at h
    obtain ⟨hid, hrest⟩ := line_cancel hbar hbar' h
    have hmem : bar ∈ numberUnits (floorQuotient t' (windowOf row'.dedup)) := by
      rw [← hrest]
      simp
    exact absurd hmem (bar_numberUnits _)
  · simp only [List.append_assoc, List.cons_append] at h
    obtain ⟨hid, -⟩ := line_cancel hbar hbar' h
    exact ⟨hid, fun hdedup => absurd hdedup hnone⟩
  · obtain ⟨hid, -⟩ := line_cancel hbar hbar' h
    exact ⟨hid, fun hdedup => absurd hdedup hnone⟩

/-- A time from zero on, before the window of a watch that fires once ends. -/
def Early (t : Number) : Prop := t.IsFinite ∧ 0 ≤ t.toDouble ∧ t.toDouble < 2 ^ 62

lemma once_window : ∃ d, Number.ofInt (2 ^ 62) = .finite false d ∧ double d.value = 2 ^ 62 := by
  have hrank := rank_ofInt (2 ^ 62)
  obtain ⟨d, hd⟩ : ∃ d, Number.ofInt (2 ^ 62) = .finite false d := ⟨_, rfl⟩
  refine ⟨d, hd, ?_⟩
  rw [hd] at hrank
  have hvalue : d.value = ((2 ^ 62 : ℤ) : ℚ) := WithTop.coe_injective (WithBot.coe_injective (Option.some.inj hrank))
  have hpower : ((2 ^ 62 : ℤ) : ℚ) = 2 ^ (62 : ℤ) := by norm_num
  rw [hvalue, hpower, double_zpow (by norm_num)]
  norm_num

lemma floorQuotient_early (h : Early t) : floorQuotient t (.ofInt (2 ^ 62)) = .ofInt 0 := by
  obtain ⟨d, hd, hwindow⟩ := once_window
  obtain ⟨hfinite, hlow, hhigh⟩ := h
  have hquotient : 0 ≤ double (t.toDouble / 2 ^ 62) ∧ double (t.toDouble / 2 ^ 62) < 1 := by
    have hpower : (2 : ℚ) ^ 62 = 2 ^ (62 : ℤ) := by norm_num
    rw [hpower] at hhigh ⊢
    cases t with
    | nan => exact hfinite.elim
    | infinity negative => exact hfinite.elim
    | zero => simp [Number.toDouble, double_zero]
    | finite negative v =>
      have hvalue : 0 ≤ v.value := by
        unfold Decimal.value
        positivity
      cases negative with
      | false => exact double_div_lt_one (by norm_num) hvalue hhigh
      | true =>
        have hzero : double v.value = 0 := le_antisymm (by simpa [Number.toDouble] using hlow) (double_nonneg hvalue)
        simp [Number.toDouble, hzero, double_zero]
  have hto : (Number.finite false d).toDouble = 2 ^ 62 := hwindow
  rw [← hto] at hquotient
  have hsmall : |double (t.toDouble / (Number.finite false d).toDouble)| < 2 ^ 1024 := by
    rw [abs_of_nonneg hquotient.1]
    exact hquotient.2.trans (one_lt_pow₀ one_lt_two (by decide))
  have hwhole : Number.IsFinite (.finite false d) := trivial
  rw [hd, floorQuotient_finite hfinite hwhole (by simp) hsmall, Int.floor_eq_zero_iff.mpr ⟨hquotient.1, hquotient.2⟩]

end Keys

section Devices

/-- The events that the devices' fires yield. -/
def minted (mints : List (WatchRow × FireCtx)) : List WatchEventRow :=
  mints.filterMap fun m => (fireWatch m.1 m.2).toOption

/-- An event that a fire of the watch has minted. -/
def OfWatch (mints : List (WatchRow × FireCtx)) (row : WatchRow) (e : WatchEventRow) : Prop :=
  ∃ ctx, (row, ctx) ∈ mints ∧ fireWatch row ctx = .ok e

/-- The texts whose hashes are the keys in play. -/
def keyTexts (mints : List (WatchRow × FireCtx)) : Set JsString :=
  {text | ∃ m ∈ mints, text = keyText m.1 m.2.nowMs m.2.evidenceRef}

variable {mints : List (WatchRow × FireCtx)} {row row' : WatchRow} {e e' : WatchEventRow}

lemma mem_minted : e ∈ minted mints ↔ ∃ row, OfWatch mints row e := by
  rw [minted, List.mem_filterMap]
  constructor
  · rintro ⟨⟨row, ctx⟩, hm, hfire⟩
    refine ⟨row, ctx, hm, ?_⟩
    cases hresult : fireWatch row ctx with
    | error refusal =>
      rw [hresult] at hfire
      cases hfire
    | ok minted =>
      rw [hresult] at hfire
      cases hfire
      rfl
  · rintro ⟨row, ctx, hm, hfire⟩
    refine ⟨(row, ctx), hm, ?_⟩
    rw [hfire]
    rfl

/-- Keys in play are equal just where their texts are. -/
lemma key_iff (hinj : Set.InjOn hash53 (keyTexts mints)) (h : OfWatch mints row e) (h' : OfWatch mints row' e') :
    e.idempotencyKey = e'.idempotencyKey ↔
      keyText row e.firedAt e.evidenceRef = keyText row' e'.firedAt e'.evidenceRef := by
  obtain ⟨ctx, hm, hfire⟩ := h
  obtain ⟨ctx', hm', hfire'⟩ := h'
  obtain ⟨-, htime, hevidence, hkey⟩ := fire_ok hfire
  obtain ⟨-, htime', hevidence', hkey'⟩ := fire_ok hfire'
  rw [hkey, hkey', htime, htime', hevidence, hevidence']
  exact hinj.eq_iff ⟨(row, ctx), hm, rfl⟩ ⟨(row', ctx'), hm', rfl⟩

lemma watchRef_eq (h : OfWatch mints row e) : e.watchRef = row.id := by
  obtain ⟨ctx, -, hfire⟩ := h
  exact (fire_ok hfire).1

lemma bar_id (hbars : ∀ m ∈ mints, bar ∉ m.1.id) (h : OfWatch mints row e) : bar ∉ row.id := by
  obtain ⟨ctx, hm, -⟩ := h
  exact hbars _ hm

/-- What reconciling keeps of the events of any fires, where the hash tells the keys in play apart. -/
theorem reconcile_merges (mints : List (WatchRow × FireCtx)) (hinj : Set.InjOn hash53 (keyTexts mints)) :
    (∀ e ∈ minted mints, ∃! k, k ∈ (reconcile (minted mints)).kept ∧ k.idempotencyKey = e.idempotencyKey) ∧
    (∀ row e e', row.dedup ≠ .none → OfWatch mints row e → OfWatch mints row e' →
      (e.idempotencyKey = e'.idempotencyKey ↔
        floorQuotient e.firedAt (windowOf row.dedup) = floorQuotient e'.firedAt (windowOf row.dedup))) ∧
    (∀ row, row.dedup = .once → ∀ k ∈ (reconcile (minted mints)).kept, ∀ k' ∈ (reconcile (minted mints)).kept,
      OfWatch mints row k → OfWatch mints row k' → Early k.firedAt → Early k'.firedAt → k = k') ∧
    ((∀ m ∈ mints, bar ∉ m.1.id) →
      (∀ row e, row.dedup = .none → OfWatch mints row e → ∃ k ∈ (reconcile (minted mints)).kept,
        k.watchRef = e.watchRef ∧ k.firedAt = e.firedAt ∧ k.evidenceRef = e.evidenceRef) ∧
      ∀ e ∈ minted mints, ∀ e' ∈ minted mints, e.watchRef ≠ e'.watchRef → e.idempotencyKey ≠ e'.idempotencyKey) ∧
    (∀ events, events.Perm (minted mints) → ∀ key, key ∈ (reconcile events).kept.map WatchEventRow.idempotencyKey ↔
      key ∈ (reconcile (minted mints)).kept.map WatchEventRow.idempotencyKey) ∧
    reconcile (reconcile (minted mints)).kept = ⟨(reconcile (minted mints)).kept, []⟩ := by
  have hwindow : ∀ row e e', row.dedup ≠ .none → OfWatch mints row e → OfWatch mints row e' →
      (e.idempotencyKey = e'.idempotencyKey ↔
        floorQuotient e.firedAt (windowOf row.dedup) = floorQuotient e'.firedAt (windowOf row.dedup)) := by
    intro row e e' hdedup he he'
    exact (key_iff hinj he he').trans (keyText_window hdedup _ _ _ _)
  refine ⟨fun e he => ?_, hwindow, fun row honce k hk k' hk' hrow hrow' hearly hearly' => ?_, fun hbars => ⟨?_, ?_⟩,
    fun events hperm key => ?_, reconcile_nodup (kept_keys_nodup _)⟩
  · obtain ⟨k, hk, hkey⟩ := kept_of_mem he
    refine ⟨k, ⟨hk, hkey⟩, fun k' hk' => ?_⟩
    exact kept_unique hk'.1 hk (hk'.2.trans hkey.symm)
  · refine kept_unique hk hk' ((hwindow row k k' (by simp [honce]) hrow hrow').mpr ?_)
    rw [honce]
    change floorQuotient k.firedAt (.ofInt (2 ^ 62)) = floorQuotient k'.firedAt (.ofInt (2 ^ 62))
    rw [floorQuotient_early hearly, floorQuotient_early hearly']
  · intro row e hnone he
    obtain ⟨k, hk, hkey⟩ := kept_of_mem (mem_minted.mpr ⟨row, he⟩)
    obtain ⟨row', hrow'⟩ := mem_minted.mp (kept_mem hk)
    have htext := (key_iff hinj he hrow').mp hkey.symm
    obtain ⟨hid, hparts⟩ := keyText_split (bar_id hbars he) (bar_id hbars hrow') htext
    obtain ⟨htime, hevidence⟩ := hparts hnone
    refine ⟨k, hk, ?_, htime.symm, hevidence.symm⟩
    rw [watchRef_eq hrow', ← hid, watchRef_eq he]
  · intro e he e' he' hwatch hkey
    obtain ⟨row, hrow⟩ := mem_minted.mp he
    obtain ⟨row', hrow'⟩ := mem_minted.mp he'
    have htext := (key_iff hinj hrow hrow').mp hkey
    apply hwatch
    rw [watchRef_eq hrow, watchRef_eq hrow']
    exact (keyText_split (bar_id hbars hrow) (bar_id hbars hrow') htext).1
  · rw [kept_keys_mem, kept_keys_mem]
    exact (hperm.map _).mem_iff

/-- A watch that mints every event anew. -/
def plainWatch (id : JsString) : WatchRow := { timeWatch with id := id, dedup := .none }

def fireAt (nowMs : Number) (evidenceRef : JsString) : FireCtx := ⟨true, nowMs, evidenceRef⟩

def twoFires : List (WatchRow × FireCtx) :=
  [(plainWatch (ofText "w"), fireAt .zero (ofText "e")), (plainWatch (ofText "w"), fireAt (.ofInt 1) (ofText "e"))]

lemma twoFires_injective : Set.InjOn hash53 (keyTexts twoFires) := by
  have hne : hash53 (keyText (plainWatch (ofText "w")) .zero (ofText "e")) ≠
      hash53 (keyText (plainWatch (ofText "w")) (.ofInt 1) (ofText "e")) := by
    decide
  rintro text ⟨m, hm, rfl⟩ text' ⟨m', hm', rfl⟩ heq
  simp only [twoFires, List.mem_cons, List.not_mem_nil, or_false] at hm hm'
  rcases hm with rfl | rfl <;> rcases hm' with rfl | rfl
  · rfl
  · exact absurd heq hne
  · exact absurd heq.symm hne
  · rfl

theorem reconcile_merges_two : reconcile (reconcile (minted twoFires)).kept = ⟨(reconcile (minted twoFires)).kept, []⟩ :=
  (reconcile_merges twoFires twoFires_injective).2.2.2.2.2

lemma toDouble_one : (Number.ofInt 1).toDouble = 1 := by
  have hvalue : oneDigit.value = 2 ^ (0 : ℤ) := by
    simp [Decimal.value, oneDigit, digitsValue]
  change double oneDigit.value = 1
  rw [hvalue, double_zpow (by norm_num), zpow_zero]

lemma floorQuotient_zero_one : floorQuotient .zero (.ofInt 1) = .ofInt 0 := by
  have hquotient : double (Number.zero.toDouble / (Number.ofInt 1).toDouble) = 0 := by
    simp [Number.toDouble, double_zero]
  have hfinite : Number.IsFinite .zero := trivial
  rw [floorQuotient_finite hfinite (isFinite_ofInt 1) (by decide) (by simp [hquotient]), hquotient, Int.floor_zero]

lemma floorQuotient_one_one : floorQuotient (.ofInt 1) (.ofInt 1) = .ofInt 1 := by
  have hquotient : double ((Number.ofInt 1).toDouble / (Number.ofInt 1).toDouble) = 1 := by
    rw [toDouble_one, div_one, ← zpow_zero (2 : ℚ), double_zpow (by norm_num)]
  rw [floorQuotient_finite (isFinite_ofInt 1) (isFinite_ofInt 1) (by decide) ?_, hquotient, Int.floor_one]
  rw [hquotient, abs_one]
  exact one_lt_pow₀ one_lt_two (by decide)

lemma fireKey_window {row : WatchRow} (h : row.dedup ≠ .none) (t : Number) (evidenceRef : JsString) :
    fireKey row t evidenceRef = hash53 (row.id ++ bar :: numberUnits (floorQuotient t (windowOf row.dedup))) :=
  if_neg h

def narrowWatch : WatchRow := { timeWatch with dedup := .window (.ofInt 1) }

def onceWatch : WatchRow := { timeWatch with dedup := .once }

/-- Two fires within the window of a watch stay two events where a boundary lies between them, a watch that fires
once fires again after its window, and a bar in an id lets two watches mint one key. -/
theorem fires_mint_twice :
    (¬ ∀ row windowMs t t' evidenceRef, row.dedup = .window windowMs → |t.toDouble - t'.toDouble| ≤ windowMs.toDouble →
      fireKey row t evidenceRef = fireKey row t' evidenceRef) ∧
    (¬ ∀ row t t' evidenceRef, row.dedup = .once → fireKey row t evidenceRef = fireKey row t' evidenceRef) ∧
    ¬ ∀ row row' t t' evidenceRef evidenceRef', row.id ≠ row'.id →
      fireKey row t evidenceRef ≠ fireKey row' t' evidenceRef' := by
  refine ⟨fun h => ?_, fun h => ?_, fun h => ?_⟩
  · have hzero : Number.toDouble .zero = 0 := rfl
    have hkeys := h narrowWatch (.ofInt 1) .zero (.ofInt 1) [] rfl (by simp [toDouble_one, hzero])
    rw [fireKey_window (by decide), fireKey_window (by decide)] at hkeys
    rw [show windowOf narrowWatch.dedup = .ofInt 1 from rfl, floorQuotient_zero_one, floorQuotient_one_one] at hkeys
    exact absurd hkeys (by decide)
  · have hkeys := h onceWatch .zero (.infinity false) [] rfl
    have hearly : Early .zero := ⟨trivial, by simp [Number.toDouble], by simp [Number.toDouble]⟩
    have hend : floorQuotient (.infinity false) (.ofInt (2 ^ 62)) = .infinity false := by decide
    rw [fireKey_window (by decide), fireKey_window (by decide)] at hkeys
    rw [show windowOf onceWatch.dedup = .ofInt (2 ^ 62) from rfl, floorQuotient_early hearly, hend] at hkeys
    exact absurd hkeys (by decide)
  · exact h (plainWatch (ofText "a")) (plainWatch (ofText "a|1")) (.ofInt 1) (.ofInt 2) (ofText "2|x") (ofText "x")
      (by decide) (by decide)

end Devices

end VivimOmega.Gates

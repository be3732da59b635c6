import VivimOmega.Host.Ports

/-! Every accepted delivery is waiting, in flight or settled, and never twice: each table entry is
counted under its promise, and every operation keeps the counts. -/

namespace VivimOmega.Host

open Library Contracts

namespace Ports

variable {P : Ports} {T : String} {d : Delivery} {q : List Delivery} {k : CausationId}

def Waits (P : Ports) (d : Delivery) : Prop := d ∈ P.queue d.targetId

def Flying (P : Ports) (d : Delivery) : Prop :=
  ∃ p, P.pending.get? d.key = some p ∧ p.resolve = d.resolve

def Settled (P : Ports) (d : Delivery) : Prop := ∃ r, (d.resolve, r) ∈ P.resolved

def waitingCount (P : Ports) (f : Delivery → Bool) : ℕ := P.waiting.total (fun q => q.countP f)

/-- How often a promise is held by a queue, held by the pending table, or settled. -/
def tally (P : Ports) (i : ℕ) : ℕ :=
  P.waitingCount (fun d => d.resolve = i) +
    P.pending.total (fun p => if p.resolve = i then 1 else 0) +
    P.resolved.countP (fun e => e.1 = i)

/-- How many live deliveries carry a causation id. -/
def keyed (P : Ports) (c : CausationId) : ℕ :=
  P.waitingCount (fun d => d.key = c) + (P.pending.has c).toNat

@[simp] lemma queue_setQueue (T' : String) :
    (P.setQueue T q).queue T' = if T' = T then q else P.queue T' := by
  by_cases h : T' = T <;> simp [queue, setQueue, OrderedMap.get?_set, h]

lemma inflight_incInflight (T' : String) :
    (P.incInflight T k).inflight T' =
      if T' = T then (if k ∈ P.inflight T then P.inflight T else P.inflight T ++ [k])
      else P.inflight T' := by
  by_cases h : T' = T <;> simp [inflight, incInflight, OrderedMap.get?_set, h]

lemma inflight_decInflight (T' : String) :
    (P.decInflight T k).inflight T' =
      if T' = T then (P.inflight T).filter (· ≠ k) else P.inflight T' := by
  simp only [inflight, decInflight]
  cases hT : P.inflightByCompartment.get? T with
  | none =>
    by_cases h : T' = T
    · subst h
      simp [hT]
    · simp [h]
  | some keys => by_cases h : T' = T <;> simp [OrderedMap.get?_set, h]

lemma inflight_start (T' : String) :
    (P.start d).inflight T' =
      if T' = d.targetId then
        (if d.key ∈ P.inflight d.targetId then P.inflight d.targetId
          else P.inflight d.targetId ++ [d.key])
      else P.inflight T' := inflight_incInflight T'

lemma decInflight_absent (h : k ∉ P.inflight T) : P.decInflight T k = P := by
  simp only [inflight] at h
  unfold decInflight
  cases hT : P.inflightByCompartment.get? T with
  | none => rfl
  | some keys =>
    have hkeys : keys.filter (· ≠ k) = keys := by
      apply List.filter_eq_self.mpr
      intro k' hk'
      simp only [hT, Option.getD_some] at h
      have hne : k' ≠ k := by
        rintro rfl
        exact h hk'
      simpa using hne
    simp only [hkeys, OrderedMap.set_same hT]

lemma waitingCount_setQueue (f : Delivery → Bool) :
    (P.setQueue T q).waitingCount f + (P.queue T).countP f = P.waitingCount f + q.countP f := by
  unfold waitingCount setQueue queue
  cases h : P.waiting.get? T with
  | none => simp [OrderedMap.total_set_fresh _ _ h]
  | some w => simpa using OrderedMap.total_set (fun q : List Delivery => q.countP f) q h

lemma waitingCount_dropQueue (f : Delivery → Bool) :
    (P.dropQueue T).waitingCount f + (P.queue T).countP f =
      P.waitingCount f := by
  unfold waitingCount queue dropQueue
  cases h : P.waiting.get? T with
  | none => simp [OrderedMap.delete_fresh h]
  | some w => simpa using OrderedMap.total_delete (fun q : List Delivery => q.countP f) h

lemma countP_queue_le (f : Delivery → Bool) : (P.queue T).countP f ≤ P.waitingCount f := by
  unfold waitingCount queue
  cases h : P.waiting.get? T with
  | none => simp
  | some w => simpa using OrderedMap.le_total (fun q : List Delivery => q.countP f) h

lemma exists_of_waitingCount_pos {f : Delivery → Bool} (h : 0 < P.waitingCount f) :
    ∃ T, ∃ d ∈ P.queue T, f d = true := by
  obtain ⟨T, q, hq, hf⟩ := OrderedMap.exists_of_total_pos h
  obtain ⟨d, hd, hfd⟩ := List.countP_pos_iff.mp hf
  exact ⟨T, d, by simpa [queue, hq] using hd, hfd⟩

lemma keyed_pos_of_queued (h : d ∈ P.queue T) : 0 < P.waitingCount (fun e => e.key = d.key) :=
  (List.countP_pos_iff.mpr ⟨d, h, by simp⟩).trans_le (countP_queue_le _)

/-- Settles the items that ran out of time while waiting. -/
def expire (P : Ports) (es : List Delivery) : Ports :=
  { P with resolved := P.resolved ++ es.map (fun d => (d.resolve, expiredInQueue d)) }

lemma tally_settle (i p : ℕ) (r : PortResult) :
    (P.settle p r).tally i = P.tally i + if p = i then 1 else 0 := by
  by_cases h : p = i <;> simp [tally, settle, waitingCount, h]
  omega

lemma tally_start (i : ℕ) (h : P.pending.get? d.key = none) :
    (P.start d).tally i = P.tally i + if d.resolve = i then 1 else 0 := by
  simp only [tally, start, waitingCount, post, incInflight]
  rw [OrderedMap.total_set_fresh _ _ h]
  dsimp only
  omega

lemma keyed_start (c : CausationId) (h : P.pending.get? d.key = none) :
    (P.start d).keyed c = P.keyed c + if d.key = c then 1 else 0 := by
  simp only [keyed, start, waitingCount, post, incInflight, OrderedMap.has_set]
  by_cases hc : c = d.key
  · subst hc
    simp [(OrderedMap.has_eq_false _ _).mpr h]
  · have hne : ¬ d.key = c := fun hh => hc hh.symm
    simp [hc, hne]

lemma tally_free (i : ℕ) (t : Option ℕ) {p : Pending}
    (h : P.pending.get? k = some p) :
    ((P.clearTimer t).deletePending k).tally i + (if p.resolve = i then 1 else 0) = P.tally i := by
  have hd := OrderedMap.total_delete (fun p : Pending => if p.resolve = i then 1 else 0) h
  simp only [tally, clearTimer, deletePending, waitingCount]
  omega

lemma keyed_free (c : CausationId) (t : Option ℕ) :
    ((P.clearTimer t).deletePending k).keyed c ≤ P.keyed c := by
  simp only [keyed, clearTimer, deletePending, waitingCount, OrderedMap.has_delete]
  by_cases hc : c = k <;> simp [hc]

@[simp] lemma settle_accepted (p : ℕ) (r : PortResult) :
    (P.settle p r).accepted = P.accepted := rfl

lemma failKeys_inflight (r : PortResult) (keys : List CausationId) :
    (keys.foldl (failKey r) P).inflightByCompartment = P.inflightByCompartment := by
  induction keys generalizing P with
  | nil => rfl
  | cons k rest ih =>
    rw [List.foldl_cons, ih, failKey]
    cases P.pending.get? k <;> rfl

lemma failKeys_waiting (r : PortResult) (keys : List CausationId) :
    (keys.foldl (failKey r) P).waiting = P.waiting := by
  induction keys generalizing P with
  | nil => rfl
  | cons k rest ih =>
    rw [List.foldl_cons, ih, failKey]
    cases P.pending.get? k <;> rfl

lemma failWaiting_queue (r : PortResult) (q : List Delivery) :
    (failWaiting r P q).waiting = P.waiting := by
  induction q generalizing P with
  | nil => rfl
  | cons d rest ih =>
    rw [failWaiting, ih]
    rfl

lemma failWaiting_pending (r : PortResult) (q : List Delivery) :
    (failWaiting r P q).pending = P.pending := by
  induction q generalizing P with
  | nil => rfl
  | cons d rest ih =>
    rw [failWaiting, ih]
    rfl

lemma failWaiting_inflight (r : PortResult) (q : List Delivery) :
    (failWaiting r P q).inflightByCompartment = P.inflightByCompartment := by
  induction q generalizing P with
  | nil => rfl
  | cons d rest ih =>
    rw [failWaiting, ih]
    rfl

lemma inflight_failInflight (T T' reason : String) :
    (P.failInflight T reason).inflight T' = if T' = T then [] else P.inflight T' := by
  simp only [inflight, failInflight, failKeys_inflight, dropQueue, failWaiting_inflight]
  cases hT : P.inflightByCompartment.get? T with
  | none =>
    by_cases h : T' = T
    · subst h
      simp [hT]
    · simp [h]
  | some keys => by_cases h : T' = T <;> simp [OrderedMap.get?_set, h]

lemma queue_failInflight (T T' reason : String) :
    (P.failInflight T reason).queue T' = if T' = T then [] else P.queue T' := by
  simp only [queue, failInflight, failKeys_waiting, dropQueue, failWaiting_queue,
    OrderedMap.get?_delete]
  by_cases h : T' = T <;> simp [h]

lemma pending_failKeys (r : PortResult) (keys : List CausationId) (k : CausationId) :
    (keys.foldl (failKey r) P).pending.get? k = if k ∈ keys then none else P.pending.get? k := by
  induction keys generalizing P with
  | nil => simp
  | cons k' rest ih =>
    have hone : (failKey r P k').pending.get? k = if k = k' then none else P.pending.get? k := by
      unfold failKey
      cases hp : P.pending.get? k' with
      | none =>
        by_cases hk : k = k'
        · rw [if_pos hk, hk, hp]
        · rw [if_neg hk]
      | some p => exact OrderedMap.get?_delete _ _ _
    rw [List.foldl_cons, ih, hone]
    by_cases hk : k = k' <;> simp [hk]

lemma pending_failInflight (T reason : String) (k : CausationId) :
    (P.failInflight T reason).pending.get? k =
      if k ∈ P.inflight T then none else P.pending.get? k := by
  let unqueued := (failWaiting (.fail .degraded reason) P (P.queue T)).dropQueue T
  have hinf : unqueued.inflight T = P.inflight T := by
    simp only [unqueued, inflight, dropQueue, failWaiting_inflight]
  have hpending : unqueued.pending = P.pending := failWaiting_pending _ _
  have hkeys : (P.failInflight T reason).pending.get? k =
      if k ∈ unqueued.inflight T then none else unqueued.pending.get? k := pending_failKeys _ _ k
  rw [hkeys, hinf, hpending]

lemma pending_of_keyed (h : P.keyed k = 0) : P.pending.get? k = none := by
  rw [← OrderedMap.has_eq_false]
  cases hh : P.pending.has k with
  | false => rfl
  | true =>
    simp only [keyed, hh, Bool.toNat_true] at h
    omega

/-- Nothing is accepted, what was settled stays settled, and what crossed the wire is on record. -/
structure Grows (P Q : Ports) : Prop where
  accepted : Q.accepted = P.accepted
  resolved : ∀ e ∈ P.resolved, e ∈ Q.resolved
  trace : ∀ w ∈ P.trace, w ∈ Q.trace

namespace Grows

lemma refl (P : Ports) : Grows P P := ⟨rfl, fun _ he => he, fun _ hw => hw⟩

lemma trans {P Q S : Ports} (h : Grows P Q) (h' : Grows Q S) : Grows P S :=
  ⟨h'.accepted.trans h.accepted, fun e he => h'.resolved e (h.resolved e he),
    fun w hw => h'.trace w (h.trace w hw)⟩

lemma same {P Q : Ports} (ha : Q.accepted = P.accepted) (hr : Q.resolved = P.resolved)
    (ht : Q.trace = P.trace) : Grows P Q := ⟨ha, fun _ he => hr.symm ▸ he, fun _ hw => ht.symm ▸ hw⟩

lemma post (id : String) (m : ToWorker) (P : Ports) : Grows P (P.post id m) :=
  ⟨rfl, fun _ he => he, fun _ hw => List.mem_cons_of_mem _ hw⟩

lemma receive (id : String) (m : FromWorker) (P : Ports) : Grows P (P.receive id m) :=
  ⟨rfl, fun _ he => he, fun _ hw => List.mem_cons_of_mem _ hw⟩

lemma settle (P : Ports) (p : ℕ) (r : PortResult) : Grows P (P.settle p r) :=
  ⟨rfl, fun _ he => List.mem_append_left _ he, fun _ hw => hw⟩

lemma drain (T : String) (q : List Delivery) (P : Ports) : Grows P (drain T P q) := by
  induction q generalizing P with
  | nil => exact same rfl rfl rfl
  | cons d rest ih =>
    rw [Ports.drain]
    split_ifs
    · let Q := P.settle d.resolve (expiredInQueue d)
      have hdec : Grows Q (Q.decInflight T "") := same rfl rfl rfl
      exact ((settle P _ _).trans hdec).trans (ih _)
    · exact ⟨rfl, fun _ he => he, fun _ hw => List.mem_cons_of_mem _ hw⟩

lemma release (T : String) (k : CausationId) (P : Ports) : Grows P (P.release T k) := by
  have hdec : Grows P (P.decInflight T k) := same rfl rfl rfl
  exact hdec.trans (drain T (P.queue T) _)

lemma answer (T : String) (k : CausationId) (t : Option ℕ) (i : ℕ) (r : PortResult) (P : Ports) :
    Grows P ((((P.clearTimer t).deletePending k).release T k).settle i r) := by
  have hfree : Grows P ((P.clearTimer t).deletePending k) := same rfl rfl rfl
  exact (hfree.trans (release T k _)).trans (settle _ i r)

lemma onReturn (T : String) (k : CausationId) (r : PortResult) (P : Ports) :
    Grows P (P.onReturn T k r) := by
  unfold Ports.onReturn
  cases P.pending.get? k with
  | none => exact refl P
  | some p => exact answer T k p.timer p.resolve r P

lemma onDeadline (d : Delivery) (P : Ports) : Grows P (P.onDeadline d) := by
  unfold Ports.onDeadline
  dsimp only
  split_ifs
  · exact answer d.targetId d.key (some d.resolve) d.resolve _ P
  · exact ⟨rfl, fun _ he => he, fun _ hw => hw⟩

lemma onChunk (k : CausationId) (c : StreamChunk) (P : Ports) : Grows P (P.onChunk k c) := by
  unfold Ports.onChunk
  split
  · exact refl P
  · split_ifs
    · exact ⟨rfl, fun _ he => he, fun _ hw => hw⟩
    · exact refl P

lemma failWaiting (r : PortResult) (q : List Delivery) (P : Ports) :
    Grows P (failWaiting r P q) := by
  induction q generalizing P with
  | nil => exact refl P
  | cons d rest ih => exact (settle P _ _).trans (ih _)

lemma failKey (r : PortResult) (P : Ports) (k : CausationId) : Grows P (failKey r P k) := by
  unfold Ports.failKey
  cases P.pending.get? k with
  | none => exact refl P
  | some p =>
    have hfree : Grows P ((P.clearTimer p.timer).deletePending k) := same rfl rfl rfl
    exact hfree.trans (settle _ p.resolve r)

lemma failKeys (r : PortResult) (keys : List CausationId) (P : Ports) :
    Grows P (keys.foldl (Ports.failKey r) P) := by
  induction keys generalizing P with
  | nil => exact refl P
  | cons k rest ih => exact (failKey r P k).trans (ih _)

lemma failInflight (T reason : String) (P : Ports) : Grows P (P.failInflight T reason) := by
  have hwaiting := failWaiting (.fail .degraded reason) (P.queue T) P
  have hdrop : Grows P ((Ports.failWaiting (.fail .degraded reason) P (P.queue T)).dropQueue T) :=
    hwaiting.trans (same rfl rfl rfl)
  exact (hdrop.trans (failKeys (.fail .degraded reason) _ _)).trans (same rfl rfl rfl)

end Grows

lemma tally_drain (i : ℕ) (T : String) (q : List Delivery) (P : Ports)
    (hfree : ∀ d ∈ q, P.pending.get? d.key = none) :
    (drain T P q).tally i + (P.queue T).countP (fun d => d.resolve = i) =
      P.tally i + q.countP (fun d => d.resolve = i) := by
  induction q generalizing P with
  | nil =>
    have hq := waitingCount_setQueue (P := P) (T := T) (q := []) (fun d => d.resolve = i)
    simp only [drain, tally]
    simp only [setQueue] at *
    omega
  | cons d rest ih =>
    rw [drain, List.countP_cons]
    simp only [decide_eq_true_eq]
    by_cases hexp : d.Expired P.now
    · have hih := ih ((P.settle d.resolve (expiredInQueue d)).decInflight T "")
        (fun e he => hfree e (List.mem_cons_of_mem _ he))
      have ht := tally_settle (P := P) i d.resolve (expiredInQueue d)
      have hdec : ((P.settle d.resolve (expiredInQueue d)).decInflight T "").tally i =
        (P.settle d.resolve (expiredInQueue d)).tally i := rfl
      have hqueue : ((P.settle d.resolve (expiredInQueue d)).decInflight T "").queue T =
        P.queue T := rfl
      rw [hdec, ht, hqueue] at hih
      rw [if_pos hexp]
      omega
    · have hq := waitingCount_setQueue (P := P) (T := T) (q := rest) (fun d => d.resolve = i)
      have ht := tally_start (P := P.setQueue T rest) i (hfree d List.mem_cons_self)
      rw [if_neg hexp, ht]
      simp only [tally]
      simp only [setQueue] at *
      omega

lemma tally_release (i : ℕ) (T : String) (k : CausationId)
    (hfree : ∀ d ∈ P.queue T, P.pending.get? d.key = none) :
    (P.release T k).tally i = P.tally i := by
  have hd := tally_drain i T (P.queue T) (P.decInflight T k) hfree
  have hdec : (P.decInflight T k).tally i = P.tally i := rfl
  have hqueue : (P.decInflight T k).queue T = P.queue T := rfl
  rw [hdec, hqueue] at hd
  exact Nat.add_right_cancel hd

/-- The tables agree with each other and hold accepted deliveries only. -/
structure Linked (P : Ports) : Prop where
  ids : P.accepted.map Delivery.resolve = List.range P.accepted.length
  named : ∀ d ∈ P.accepted, d.key ≠ ""
  queued : ∀ T, ∀ d ∈ P.queue T, d ∈ P.accepted ∧ d.targetId = T
  pended : ∀ k p, P.pending.get? k = some p →
    ∃ d ∈ P.accepted, d.key = k ∧ d.resolve = p.resolve ∧ d.timer = p.timer
  armed : ∀ t d, P.timers.get? t = some d →
    d ∈ P.accepted ∧ d.resolve = t ∧ 0 < d.msg.deadlineMs ∧ P.Flying d
  timed : ∀ k p t, P.pending.get? k = some p → p.timer = some t → (P.timers.get? t).isSome
  filed : ∀ T, ∀ k ∈ P.inflight T, ∃ d ∈ P.accepted, d.targetId = T ∧ d.key = k
  single : ∀ c, P.keyed c ≤ 1

lemma accepted_accept (cap : ℕ) (T : String) (msg : DeliverMsg) (onChunk : Bool)
    (priority : PortPriority) :
    (P.accept cap T msg onChunk priority).accepted =
      P.accepted ++ [P.newDelivery T msg onChunk priority] := by
  unfold accept enqueue
  dsimp only
  split_ifs
  · unfold admitItem
    split_ifs
    · exact (Grows.release _ _ _).accepted
    · rfl
  · rfl

lemma resolved_accept (cap : ℕ) (T : String) (msg : DeliverMsg) (onChunk : Bool)
    (priority : PortPriority) :
    ∀ e ∈ P.resolved, e ∈ (P.accept cap T msg onChunk priority).resolved := by
  intro e he
  unfold accept enqueue
  dsimp only
  split_ifs
  · unfold admitItem
    split_ifs
    · exact (Grows.release _ _ _).resolved e (List.mem_append_left _ he)
    · exact he
  · exact he

namespace Linked

lemma resolve_inj (h : P.Linked) {d e : Delivery} (hd : d ∈ P.accepted) (he : e ∈ P.accepted)
    (hr : d.resolve = e.resolve) : d = e := by
  have hn : (P.accepted.map Delivery.resolve).Nodup := h.ids ▸ List.nodup_range
  exact List.inj_on_of_nodup_map hn hd he hr

lemma resolve_lt (h : P.Linked) (hd : d ∈ P.accepted) : d.resolve < P.accepted.length := by
  have hm : d.resolve ∈ P.accepted.map Delivery.resolve := List.mem_map_of_mem hd
  rw [h.ids] at hm
  exact List.mem_range.mp hm

lemma not_pending (h : P.Linked) (hd : d ∈ P.queue T) : P.pending.get? d.key = none := by
  have hs := h.single d.key
  have hw := keyed_pos_of_queued hd
  by_contra hne
  have hh : P.pending.has d.key = true := by
    simpa [OrderedMap.has, Option.isSome_iff_ne_none] using hne
  simp only [keyed, hh, Bool.toNat_true] at hs
  omega

lemma timer_eq (h : P.Linked) {p : Pending} (hp : P.pending.get? k = some p) {t : ℕ}
    (ht : p.timer = some t) : t = p.resolve := by
  obtain ⟨d, _, _, hr, htd⟩ := h.pended k p hp
  rw [ht, Delivery.timer] at htd
  split_ifs at htd
  simpa [hr] using htd.symm

lemma settle (h : P.Linked) (p : ℕ) (r : PortResult) : (P.settle p r).Linked :=
  ⟨h.ids, h.named, h.queued, h.pended, h.armed, h.timed, h.filed, h.single⟩

lemma expire (h : P.Linked) (es : List Delivery) : (P.expire es).Linked :=
  ⟨h.ids, h.named, h.queued, h.pended, h.armed, h.timed, h.filed, h.single⟩

lemma decInflight (h : P.Linked) (T : String) (k : CausationId) : (P.decInflight T k).Linked := by
  refine ⟨h.ids, h.named, h.queued, h.pended, h.armed, h.timed, ?_, h.single⟩
  intro T' k' hk'
  rw [inflight_decInflight] at hk'
  split_ifs at hk' with hT
  · subst hT
    exact h.filed T' k' (List.mem_filter.mp hk').1
  · exact h.filed T' k' hk'

lemma unnamed (h : P.Linked) (T : String) : "" ∉ P.inflight T := by
  intro hmem
  obtain ⟨d, hd, _, hk⟩ := h.filed T "" hmem
  exact h.named d hd hk

lemma free (h : P.Linked) {p : Pending} (hp : P.pending.get? k = some p) :
    ((P.clearTimer p.timer).deletePending k).Linked := by
  obtain ⟨d, hd, hk, hr, ht⟩ := h.pended k p hp
  refine ⟨h.ids, h.named, h.queued, ?_, ?_, ?_, h.filed,
    fun c => (keyed_free c p.timer).trans (h.single c)⟩
  · intro k' p' hp'
    simp only [clearTimer, deletePending, OrderedMap.get?_delete] at hp'
    split_ifs at hp' with hkk
    exact h.pended k' p' hp'
  · intro t e he
    have hold : P.timers.get? t = some e := by
      cases hpt : p.timer with
      | none => simpa [clearTimer, deletePending, hpt] using he
      | some t' =>
        simp only [clearTimer, deletePending, hpt, OrderedMap.get?_delete] at he
        split_ifs at he
        exact he
    obtain ⟨hea, her, hpos, pe, hpe, hpr⟩ := h.armed t e hold
    have hkey : e.key ≠ k := by
      -- the timer of the freed entry has just been cleared
      rintro rfl
      obtain rfl : pe = p := by rw [hp] at hpe; exact (Option.some.inj hpe).symm
      have hde : d = e := h.resolve_inj hd hea (hr.trans hpr)
      have hpt : pe.timer = some t := by
        rw [← ht, hde, Delivery.timer, if_pos hpos, her]
      simp [clearTimer, deletePending, hpt] at he
    refine ⟨hea, her, hpos, pe, ?_, hpr⟩
    simpa [clearTimer, deletePending, OrderedMap.get?_delete, hkey] using hpe
  · intro k' p' t hp' ht'
    simp only [clearTimer, deletePending, OrderedMap.get?_delete] at hp'
    split_ifs at hp' with hkk
    have hold := h.timed k' p' t hp' ht'
    cases hpt : p.timer with
    | none => simpa [clearTimer, deletePending, hpt] using hold
    | some t' =>
      have hne : t ≠ t' := by
        rintro rfl
        obtain ⟨d', hd', hk', hr', _⟩ := h.pended k' p' hp'
        have h1 := h.timer_eq hp' ht'
        have h2 := h.timer_eq hp hpt
        have hde : d' = d := h.resolve_inj hd' hd (hr'.trans (h1.symm.trans (h2.trans hr.symm)))
        exact hkk (by rw [← hk', ← hk, hde])
      simpa [clearTimer, deletePending, hpt, OrderedMap.get?_delete, hne] using hold

lemma setQueue (h : P.Linked) (hq : q.Sublist (P.queue T)) : (P.setQueue T q).Linked := by
  refine ⟨h.ids, h.named, ?_, h.pended, h.armed, h.timed, h.filed, ?_⟩
  · intro T' d hd
    rw [queue_setQueue] at hd
    split_ifs at hd with hT
    · subst hT
      exact h.queued T' d (hq.subset hd)
    · exact h.queued T' d hd
  · intro c
    have hw := waitingCount_setQueue (P := P) (T := T) (q := q) (fun d => d.key = c)
    have hle := hq.countP_le (p := fun d : Delivery => decide (d.key = c))
    have hs := h.single c
    have hp : (P.setQueue T q).pending = P.pending := rfl
    simp only [keyed, hp] at *
    omega

lemma start (h : P.Linked) (hd : d ∈ P.accepted) (hfree : P.keyed d.key = 0) :
    (P.start d).Linked := by
  have hnone : P.pending.get? d.key = none := by
    by_contra hne
    have hh : P.pending.has d.key = true := by
      simpa [OrderedMap.has, Option.isSome_iff_ne_none] using hne
    simp [keyed, hh] at hfree
  have hpending : (P.start d).pending =
    P.pending.set d.key { resolve := d.resolve, timer := d.timer, onChunk := d.onChunk } := rfl
  have htimers : (P.start d).timers =
    if 0 < d.msg.deadlineMs then P.timers.set d.resolve d else P.timers := rfl
  refine ⟨h.ids, h.named, h.queued, ?_, ?_, ?_, ?_, ?_⟩
  · intro k p hp
    rw [hpending, OrderedMap.get?_set] at hp
    split_ifs at hp with hk
    · cases hp
      exact ⟨d, hd, hk.symm, rfl, rfl⟩
    · exact h.pended k p hp
  · intro t e he
    have hcases : (e = d ∧ t = d.resolve ∧ 0 < d.msg.deadlineMs) ∨ P.timers.get? t = some e := by
      rw [htimers] at he
      split_ifs at he with hpos
      · rw [OrderedMap.get?_set] at he
        split_ifs at he with ht
        · exact Or.inl ⟨(Option.some.inj he).symm, ht, hpos⟩
        · exact Or.inr he
      · exact Or.inr he
    rcases hcases with ⟨rfl, rfl, hpos⟩ | hold
    · exact ⟨hd, rfl, hpos, _, by rw [hpending, OrderedMap.get?_set_self], rfl⟩
    · obtain ⟨hea, her, hpos, pe, hpe, hpr⟩ := h.armed t e hold
      have hkey : e.key ≠ d.key := by
        intro hk
        rw [hk, hnone] at hpe
        cases hpe
      exact ⟨hea, her, hpos, pe, by rw [hpending, OrderedMap.get?_set_of_ne _ _ hkey, hpe], hpr⟩
  · intro k p t hp ht
    rw [hpending, OrderedMap.get?_set] at hp
    rw [htimers]
    split_ifs at hp with hk
    · cases hp
      rw [Delivery.timer] at ht
      split_ifs at ht with hpos
      cases ht
      simp [hpos]
    · have hold := h.timed k p t hp ht
      split_ifs
      · rw [OrderedMap.get?_set]
        split_ifs <;> simp [hold]
      · exact hold
  · intro T k hk
    rw [inflight_start] at hk
    split_ifs at hk with hT hin
    · exact h.filed T k (hT ▸ hk)
    · rcases List.mem_append.mp hk with hk | hk
      · exact h.filed T k (hT ▸ hk)
      · exact ⟨d, hd, hT.symm, (List.mem_singleton.mp hk).symm⟩
    · exact h.filed T k hk
  · intro c
    rw [keyed_start c hnone]
    have hs := h.single c
    split_ifs with hc
    · subst hc
      omega
    · omega

lemma drain (h : P.Linked) (hq : q.Sublist (P.queue T)) : (drain T P q).Linked := by
  induction q generalizing P with
  | nil => exact h.setQueue hq
  | cons d rest ih =>
    have hrest : rest.Sublist (P.queue T) := (List.sublist_cons_self d rest).trans hq
    have hmem : d ∈ P.queue T := hq.subset List.mem_cons_self
    rw [Ports.drain]
    split_ifs with hexp
    · exact ih ((h.settle _ _).decInflight T "") hrest
    · apply (h.setQueue hrest).start (h.queued T d hmem).1
      have hw := waitingCount_setQueue (P := P) (T := T) (q := rest) (fun e => e.key = d.key)
      have hle := hq.countP_le (p := fun e : Delivery => decide (e.key = d.key))
      have hs := h.single d.key
      have hp : (P.setQueue T rest).pending = P.pending := rfl
      rw [List.countP_cons_of_pos (by simp)] at hle
      simp only [keyed, hp] at *
      omega

lemma release (h : P.Linked) (T : String) (k : CausationId) : (P.release T k).Linked :=
  (h.decInflight T k).drain (List.Sublist.refl _)

lemma tally_release (h : P.Linked) (i : ℕ) (T : String) (k : CausationId) :
    (P.release T k).tally i = P.tally i :=
  Ports.tally_release i T k (fun _ hd => h.not_pending hd)

lemma failWaiting (h : P.Linked) (r : PortResult) (q : List Delivery) :
    (failWaiting r P q).Linked := by
  induction q generalizing P with
  | nil => exact h
  | cons d rest ih => exact ih (h.settle _ _)

lemma dropQueue (h : P.Linked) (T : String) : (P.dropQueue T).Linked := by
  refine ⟨h.ids, h.named, ?_, h.pended, h.armed, h.timed, h.filed, ?_⟩
  · intro T' d hd
    simp only [queue, Ports.dropQueue, OrderedMap.get?_delete] at hd
    split_ifs at hd with hT
    · simp at hd
    · exact h.queued T' d hd
  · intro c
    have hle : (P.dropQueue T).waitingCount (fun d => d.key = c) ≤
        P.waitingCount (fun d => d.key = c) := by
      have hw := waitingCount_dropQueue (P := P) (T := T) (fun d => d.key = c)
      omega
    have hs := h.single c
    have hp : (P.dropQueue T).pending = P.pending := rfl
    simp only [keyed, hp] at *
    omega

lemma failKey (h : P.Linked) (r : PortResult) (k : CausationId) : (failKey r P k).Linked := by
  unfold Ports.failKey
  cases hp : P.pending.get? k with
  | none => exact h
  | some p => exact (h.free hp).settle _ _

lemma failKeys (h : P.Linked) (r : PortResult) (keys : List CausationId) :
    (keys.foldl (Ports.failKey r) P).Linked := by
  induction keys generalizing P with
  | nil => exact h
  | cons k rest ih => exact ih (h.failKey r k)

lemma failInflight (h : P.Linked) (T reason : String) : (P.failInflight T reason).Linked := by
  have hf := (((h.failWaiting (.fail .degraded reason) (P.queue T)).dropQueue T).failKeys
    (.fail .degraded reason)
    (((Ports.failWaiting (.fail .degraded reason) P (P.queue T)).dropQueue T).inflight T))
  refine ⟨hf.ids, hf.named, hf.queued, hf.pended, hf.armed, hf.timed, ?_, hf.single⟩
  intro T' k hk
  rw [inflight_failInflight] at hk
  split_ifs at hk
  · simp at hk
  · rw [(Grows.failInflight T reason P).accepted]
    exact h.filed T' k hk

lemma accepted (h : P.Linked) (hnew : d.resolve = P.nextPromise) (hkey : d.key ≠ "") :
    ({ P with accepted := P.accepted ++ [d] } : Ports).Linked := by
  have hsub : ∀ e ∈ P.accepted, e ∈ P.accepted ++ [d] := fun e he => List.mem_append_left _ he
  refine ⟨?_, ?_, ?_, ?_, ?_, h.timed, ?_, h.single⟩
  · rw [List.map_append, h.ids, List.length_append, List.map_singleton, List.length_singleton,
      List.range_succ, hnew]
    rfl
  · intro e he
    rcases List.mem_append.mp he with he | he
    · exact h.named e he
    · rw [List.mem_singleton.mp he]
      exact hkey
  · intro T e he
    exact ⟨hsub e (h.queued T e he).1, (h.queued T e he).2⟩
  · intro k p hp
    obtain ⟨e, he, hk⟩ := h.pended k p hp
    exact ⟨e, hsub e he, hk⟩
  · intro t e he
    obtain ⟨hea, her⟩ := h.armed t e he
    exact ⟨hsub e hea, her⟩
  · intro T k hk
    obtain ⟨e, he, hek⟩ := h.filed T k hk
    exact ⟨e, hsub e he, hek⟩

lemma insertQueue (h : P.Linked) (hd : d ∈ P.accepted) (hfree : P.keyed d.key = 0)
    (hq : q.Perm (d :: P.queue d.targetId)) : (P.setQueue d.targetId q).Linked := by
  refine ⟨h.ids, h.named, ?_, h.pended, h.armed, h.timed, h.filed, ?_⟩
  · intro T' e he
    rw [queue_setQueue] at he
    split_ifs at he with hT
    · subst hT
      rcases List.mem_cons.mp (hq.subset he) with rfl | hm
      · exact ⟨hd, rfl⟩
      · exact h.queued _ e hm
    · exact h.queued T' e he
  · intro c
    have hw := waitingCount_setQueue (P := P) (T := d.targetId) (q := q) (fun e => e.key = c)
    have hs := h.single c
    have hp : (P.setQueue d.targetId q).pending = P.pending := rfl
    rw [hq.countP_eq, List.countP_cons] at hw
    simp only [keyed, hp, decide_eq_true_eq] at *
    split_ifs at hw with hc
    · subst hc
      omega
    · omega

end Linked

lemma insertByPriority_perm (d : Delivery) (q : List Delivery) :
    (insertByPriority d q).Perm (d :: q) := by
  unfold insertByPriority
  split
  · exact List.perm_append_singleton d q
  · rename_i i _
    have hm : (q.take i ++ d :: q.drop i).Perm (d :: (q.take i ++ q.drop i)) := List.perm_middle
    rwa [List.take_append_drop] at hm

lemma not_expired_at_accept (hnew : d.acceptedAt = P.now) : ¬ d.Expired P.now := by
  rintro ⟨hpos, hdue⟩
  simp only [Delivery.due, hnew] at hdue
  omega

lemma tally_failWaiting (i : ℕ) (r : PortResult) (q : List Delivery) :
    (failWaiting r P q).tally i = P.tally i + q.countP (fun d => d.resolve = i) := by
  induction q generalizing P with
  | nil => rfl
  | cons d rest ih =>
    rw [failWaiting, ih, tally_settle, List.countP_cons]
    simp only [decide_eq_true_eq]
    omega

lemma tally_failKey (i : ℕ) (r : PortResult) (k : CausationId) :
    (failKey r P k).tally i = P.tally i := by
  unfold failKey
  cases hp : P.pending.get? k with
  | none => rfl
  | some p =>
    have hf := tally_free i p.timer hp
    have hs := tally_settle (P := (P.clearTimer p.timer).deletePending k) i p.resolve r
    simp only
    omega

lemma tally_failKeys (i : ℕ) (r : PortResult) (keys : List CausationId) :
    (keys.foldl (failKey r) P).tally i = P.tally i := by
  induction keys generalizing P with
  | nil => rfl
  | cons k rest ih => rw [List.foldl_cons, ih, tally_failKey]

lemma tally_failInflight (i : ℕ) (T reason : String) :
    (P.failInflight T reason).tally i = P.tally i := by
  let r := PortResult.fail .degraded reason
  let emptied := failWaiting r P (P.queue T)
  let unqueued := emptied.dropQueue T
  have hkeys : (P.failInflight T reason).tally i = unqueued.tally i :=
    tally_failKeys i r (unqueued.inflight T)
  have hfail : emptied.tally i = P.tally i + (P.queue T).countP (fun d => d.resolve = i) :=
    tally_failWaiting i r (P.queue T)
  have hqueue : emptied.queue T = P.queue T := by
    simp only [queue, emptied, failWaiting_queue]
  have hdrop := waitingCount_dropQueue (P := emptied) (T := T) (fun d => d.resolve = i)
  have hun : unqueued.tally i + emptied.waitingCount (fun d => d.resolve = i) =
      emptied.tally i + unqueued.waitingCount (fun d => d.resolve = i) := by
    simp only [tally, unqueued, dropQueue]
    omega
  rw [hqueue] at hdrop
  rw [hkeys]
  simp only [unqueued] at *
  omega

/-- `Linked`, with every accepted delivery in exactly one place. -/
structure Sound (P : Ports) : Prop where
  linked : P.Linked
  conserved : ∀ i, P.tally i = if i < P.accepted.length then 1 else 0

namespace Sound

lemma of_tally (hL : P.Linked) {Q : Ports} (h : Q.Sound) (ha : P.accepted = Q.accepted)
    (ht : ∀ i, P.tally i = Q.tally i) : P.Sound :=
  ⟨hL, fun i => by rw [ht, ha, h.conserved]⟩

lemma empty : ({} : Ports).Sound := by
  refine ⟨⟨rfl, ?_, ?_, ?_, ?_, ?_, ?_, ?_⟩, ?_⟩
  · simp
  · simp [queue]
  · simp
  · simp
  · simp
  · simp [inflight]
  · intro c
    simp [keyed, waitingCount, OrderedMap.has]
  · intro i
    simp [tally, waitingCount]

lemma of_tables {Q : Ports} (h : Q.Sound) (hp : P.pending = Q.pending)
    (hi : P.inflightByCompartment = Q.inflightByCompartment) (hw : P.waiting = Q.waiting)
    (ht : P.timers = Q.timers) (ha : P.accepted = Q.accepted) (hr : P.resolved = Q.resolved) :
    P.Sound := by
  cases P
  cases Q
  simp only at hp hi hw ht ha hr
  subst hp hi hw ht ha hr
  exact ⟨⟨h.linked.ids, h.linked.named, h.linked.queued, h.linked.pended, h.linked.armed,
    h.linked.timed, h.linked.filed, h.linked.single⟩, h.conserved⟩

lemma post (h : P.Sound) (T : String) (m : ToWorker) : (P.post T m).Sound :=
  h.of_tables rfl rfl rfl rfl rfl rfl

lemma receive (h : P.Sound) (T : String) (m : FromWorker) : (P.receive T m).Sound :=
  h.of_tables rfl rfl rfl rfl rfl rfl

lemma advance (h : P.Sound) (ms : ℕ) : (P.advance ms).Sound :=
  h.of_tables rfl rfl rfl rfl rfl rfl

lemma onChunk (h : P.Sound) (k : CausationId) (c : StreamChunk) : (P.onChunk k c).Sound := by
  unfold Ports.onChunk
  split
  · exact h
  · split_ifs
    · exact h.of_tables rfl rfl rfl rfl rfl rfl
    · exact h

lemma count_waits (h : P.Waits d) : 0 < P.waitingCount (fun e => e.resolve = d.resolve) :=
  (List.countP_pos_iff.mpr ⟨d, h, by simp⟩).trans_le (countP_queue_le _)

lemma count_flying (h : P.Flying d) :
    0 < P.pending.total (fun p => if p.resolve = d.resolve then 1 else 0) := by
  obtain ⟨p, hp, hr⟩ := h
  have hle := OrderedMap.le_total (fun p : Pending => if p.resolve = d.resolve then 1 else 0) hp
  simp only [hr, if_true] at hle
  omega

lemma count_settled (h : P.Settled d) : 0 < P.resolved.countP (fun e => e.1 = d.resolve) := by
  obtain ⟨r, hr⟩ := h
  exact List.countP_pos_iff.mpr ⟨_, hr, by simp⟩

lemma tally_accepted (h : P.Sound) (hd : d ∈ P.accepted) : P.tally d.resolve = 1 := by
  rw [h.conserved, if_pos (h.linked.resolve_lt hd)]

lemma trichotomy (h : P.Sound) (hd : d ∈ P.accepted) :
    (P.Waits d ∧ ¬ P.Flying d ∧ ¬ P.Settled d) ∨ (¬ P.Waits d ∧ P.Flying d ∧ ¬ P.Settled d) ∨
      (¬ P.Waits d ∧ ¬ P.Flying d ∧ P.Settled d) := by
  have ht := h.tally_accepted hd
  unfold tally at ht
  have hw : P.Waits d ↔ 0 < P.waitingCount (fun e => e.resolve = d.resolve) := by
    refine ⟨count_waits, fun hpos => ?_⟩
    obtain ⟨T, e, he, her⟩ := exists_of_waitingCount_pos hpos
    obtain ⟨hea, heT⟩ := h.linked.queued T e he
    obtain rfl : e = d := h.linked.resolve_inj hea hd (by simpa using her)
    rw [← heT] at he
    exact he
  have hf : P.Flying d ↔ 0 < P.pending.total (fun p => if p.resolve = d.resolve then 1 else 0) := by
    refine ⟨count_flying, fun hpos => ?_⟩
    obtain ⟨k, p, hp, hpos⟩ := OrderedMap.exists_of_total_pos hpos
    obtain ⟨e, hea, hek, her, _⟩ := h.linked.pended k p hp
    have hr : p.resolve = d.resolve := by
      by_contra hne
      simp [hne] at hpos
    obtain rfl : e = d := h.linked.resolve_inj hea hd (her.trans hr)
    exact ⟨p, hek ▸ hp, hr⟩
  have hs : P.Settled d ↔ 0 < P.resolved.countP (fun e => e.1 = d.resolve) := by
    refine ⟨count_settled, fun hpos => ?_⟩
    obtain ⟨e, he, her⟩ := List.countP_pos_iff.mp hpos
    have her' : e.1 = d.resolve := by simpa using her
    exact ⟨e.2, her' ▸ he⟩
  rw [hw, hf, hs]
  omega

/-- A delivery with a key that no live delivery carries is settled. -/
lemma settled_of_keyed (h : P.Sound) (hd : d ∈ P.accepted) (hfree : P.keyed d.key = 0) :
    P.Settled d := by
  rcases h.trichotomy hd with ⟨hw, _⟩ | ⟨_, ⟨p, hp, _⟩, _⟩ | ⟨_, _, hs⟩
  · have hpos := keyed_pos_of_queued hw
    simp only [keyed] at hfree
    omega
  · rw [pending_of_keyed hfree] at hp
    cases hp
  · exact hs

lemma keyed_eq_zero (h : P.Sound) (hs : ∀ d ∈ P.accepted, d.key = k → P.Settled d) :
    P.keyed k = 0 := by
  by_contra hne
  have hcases : 0 < P.waitingCount (fun d => d.key = k) ∨ P.pending.has k = true := by
    cases hh : P.pending.has k with
    | true => exact .inr rfl
    | false =>
      simp only [keyed, hh, Bool.toNat_false] at hne
      exact .inl (by omega)
  rcases hcases with hw | hp
  · obtain ⟨T, d, hd, hk⟩ := exists_of_waitingCount_pos hw
    obtain ⟨hda, hdT⟩ := h.linked.queued T d hd
    have hsettled := hs d hda (by simpa using hk)
    have hwaits : P.Waits d := by
      rw [← hdT] at hd
      exact hd
    rcases h.trichotomy hda with ⟨_, _, hn⟩ | ⟨hn, _, _⟩ | ⟨hn, _, _⟩
    · exact hn hsettled
    · exact hn hwaits
    · exact hn hwaits
  · obtain ⟨p, hp⟩ := (OrderedMap.has_iff _ _).mp hp
    obtain ⟨d, hda, hdk, hdr, _⟩ := h.linked.pended k p hp
    have hsettled := hs d hda hdk
    have hflying : P.Flying d := ⟨p, hdk ▸ hp, hdr.symm⟩
    rcases h.trichotomy hda with ⟨_, hn, _⟩ | ⟨_, _, hn⟩ | ⟨_, hn, _⟩
    · exact hn hflying
    · exact hn hsettled
    · exact hn hflying

/-- The pending entry of a key leaves the table, its slot goes to the queue of `T`, its promise is
settled. -/
lemma answer (h : P.Sound) {p : Pending} (hp : P.pending.get? k = some p) (T : String)
    (r : PortResult) :
    ((((P.clearTimer p.timer).deletePending k).release T k).settle p.resolve r).Sound := by
  have hfree := h.linked.free hp
  refine ⟨(hfree.release T k).settle _ _, ?_⟩
  intro i
  have hacc : (((P.clearTimer p.timer).deletePending k).release T k).accepted = P.accepted := by
    exact (Grows.release T k _).accepted
  have ht := hfree.tally_release i T k
  have hf := tally_free i p.timer hp
  have hc := h.conserved i
  rw [tally_settle, ht, hf, hc, settle_accepted, hacc]

lemma onReturn (h : P.Sound) (T : String) (k : CausationId) (r : PortResult) :
    (P.onReturn T k r).Sound := by
  unfold Ports.onReturn
  cases hp : P.pending.get? k with
  | none => exact h
  | some p => exact h.answer hp T r

lemma timer_of_armed (h : P.Sound) (hd : P.timers.get? d.resolve = some d) :
    ∃ p, P.pending.get? d.key = some p ∧ p.resolve = d.resolve ∧ p.timer = some d.resolve := by
  obtain ⟨hda, _, hpos, p, hp, hr⟩ := h.linked.armed _ d hd
  obtain ⟨e, hea, _, her, het⟩ := h.linked.pended _ p hp
  obtain rfl : e = d := h.linked.resolve_inj hea hda (her.trans hr)
  exact ⟨p, hp, hr, by rw [← het, Delivery.timer, if_pos hpos]⟩

lemma onDeadline_eq (h : P.Sound) (hd : P.timers.get? d.resolve = some d) :
    ∃ p, P.pending.get? d.key = some p ∧ p.resolve = d.resolve ∧
      P.onDeadline d = (((P.clearTimer p.timer).deletePending d.key).release d.targetId d.key).settle
        p.resolve (deadlineExceeded d) := by
  obtain ⟨p, hp, hr, ht⟩ := h.timer_of_armed hd
  refine ⟨p, hp, hr, ?_⟩
  have hhas : (P.clearTimer (some d.resolve)).pending.has d.key = true := OrderedMap.has_of_get? hp
  rw [Ports.onDeadline, if_pos hhas, ht, hr]

lemma onDeadline (h : P.Sound) (hd : P.timers.get? d.resolve = some d) : (P.onDeadline d).Sound := by
  obtain ⟨p, hp, _, heq⟩ := h.onDeadline_eq hd
  rw [heq]
  exact h.answer hp _ _

lemma failInflight (h : P.Sound) (T reason : String) : (P.failInflight T reason).Sound :=
  of_tally (h.linked.failInflight T reason) h (Grows.failInflight T reason P).accepted
    (fun i => tally_failInflight i T reason)

lemma accept (h : P.Sound) (cap : ℕ) (T : String) (msg : DeliverMsg) (onChunk : Bool)
    (priority : PortPriority) (hfree : P.keyed msg.causationId = 0) (hkey : msg.causationId ≠ "") :
    (P.accept cap T msg onChunk priority).Sound := by
  let d := P.newDelivery T msg onChunk priority
  let Q : Ports := { P with accepted := P.accepted ++ [d] }
  have hQ : Q.Linked := h.linked.accepted rfl hkey
  have hd : d ∈ Q.accepted := by simp [Q]
  have hcount : ∀ i, P.tally i + (if d.resolve = i then 1 else 0) =
      if i < Q.accepted.length then 1 else 0 := by
    intro i
    have hc := h.conserved i
    have hlen : Q.accepted.length = P.accepted.length + 1 := by simp [Q]
    have hres : d.resolve = P.accepted.length := rfl
    rw [hc, hlen, hres]
    split_ifs <;> omega
  have heq : P.accept cap T msg onChunk priority = Q.enqueue cap d := rfl
  rw [heq, Ports.enqueue]
  split_ifs with hslot
  · rw [admitItem, if_neg (not_expired_at_accept rfl)]
    have hnone : Q.pending.get? d.key = none := pending_of_keyed hfree
    refine ⟨hQ.start hd hfree, fun i => ?_⟩
    rw [tally_start i hnone]
    exact hcount i
  · have hperm := insertByPriority_perm d (Q.queue d.targetId)
    refine ⟨hQ.insertQueue hd hfree hperm, fun i => ?_⟩
    have hw := waitingCount_setQueue (P := Q) (T := d.targetId)
      (q := insertByPriority d (Q.queue d.targetId)) (fun e => e.resolve = i)
    have hc := hcount i
    rw [hperm.countP_eq, List.countP_cons] at hw
    have hset : (Q.setQueue d.targetId (insertByPriority d (Q.queue d.targetId))).tally i +
        Q.waitingCount (fun e => e.resolve = i) = P.tally i +
        (Q.setQueue d.targetId (insertByPriority d (Q.queue d.targetId))).waitingCount
          (fun e => e.resolve = i) := by
      simp only [tally, waitingCount, Ports.setQueue, Q]
      omega
    simp only [decide_eq_true_eq] at hw
    have hacc : (Q.setQueue d.targetId (insertByPriority d (Q.queue d.targetId))).accepted =
      Q.accepted := rfl
    rw [hacc]
    omega

end Sound

end Ports

end VivimOmega.Host

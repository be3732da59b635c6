import VivimOmega.Host.Ledger

/-! Admission slots: the in-flight sets name exactly the deliveries in flight, they respect the
caps, a queue is only as long as its target is full, and a queue is served in order. -/

namespace VivimOmega.Host

open Library Contracts

namespace Ports

variable {P : Ports} {T : String} {d : Delivery} {q : List Delivery} {k : CausationId}

lemma drain_spec (T : String) (q : List Delivery) (P : Ports) (h : "" ∉ P.inflight T) :
    ∃ es rest, q = es ++ rest ∧ (∀ d ∈ es, d.Expired P.now) ∧
      ((rest = [] ∧ drain T P q = (P.expire es).setQueue T []) ∨
        ∃ d tl, rest = d :: tl ∧ ¬ d.Expired P.now ∧
          drain T P q = ((P.expire es).setQueue T tl).start d) := by
  induction q generalizing P with
  | nil =>
    refine ⟨[], [], rfl, by simp, Or.inl ⟨rfl, ?_⟩⟩
    simp [drain, expire]
  | cons d rest ih =>
    by_cases hexp : d.Expired P.now
    · let Q := P.settle d.resolve (expiredInQueue d)
      have hdec : Q.decInflight T "" = Q := decInflight_absent h
      have hstep : drain T P (d :: rest) = drain T Q rest := by rw [drain, if_pos hexp, hdec]
      have hexpire : ∀ es, Q.expire es = P.expire (d :: es) := by
        intro es
        simp [expire, Q, settle, List.append_assoc]
      obtain ⟨es, tl, hq, hes, hcases⟩ := ih Q h
      refine ⟨d :: es, tl, by rw [hq, List.cons_append], ?_, ?_⟩
      · intro e he
        rcases List.mem_cons.mp he with rfl | he
        · exact hexp
        · exact hes e he
      · rw [hstep, ← hexpire]
        exact hcases
    · refine ⟨[], d :: rest, rfl, by simp, Or.inr ⟨d, rest, rfl, hexp, ?_⟩⟩
      rw [drain, if_neg hexp]
      simp [expire]

/-- The in-flight sets name exactly the deliveries in flight, each under its own target. -/
structure Slotted (P : Ports) : Prop where
  slot_iff : ∀ T k, k ∈ P.inflight T ↔
    ∃ d ∈ P.accepted, d.targetId = T ∧ d.key = k ∧ P.Flying d
  nodup : ∀ T, (P.inflight T).Nodup

namespace Slotted

lemma target (h : P.Slotted) (hL : P.Linked) {p : Pending} (hk : k ∈ P.inflight T)
    (hp : P.pending.get? k = some p) (hd : d ∈ P.accepted) (hr : d.resolve = p.resolve) :
    d.targetId = T := by
  obtain ⟨e, he, hT, hek, pe, hpe, hpr⟩ := (h.slot_iff T k).mp hk
  rw [hek, hp] at hpe
  obtain rfl := Option.some.inj hpe
  rw [hL.resolve_inj hd he (hr.trans hpr), hT]

lemma mem_of_pending (h : P.Slotted) (hd : d ∈ P.accepted) {p : Pending}
    (hp : P.pending.get? d.key = some p) (hr : p.resolve = d.resolve) : d.key ∈ P.inflight d.targetId :=
  (h.slot_iff d.targetId d.key).mpr ⟨d, hd, rfl, rfl, p, hp, hr⟩

lemma of_eq {Q : Ports} (h : Q.Slotted) (ha : P.accepted = Q.accepted) (hp : P.pending = Q.pending)
    (hi : ∀ T, P.inflight T = Q.inflight T) : P.Slotted := by
  refine ⟨fun T k => ?_, fun T => (hi T).symm ▸ h.nodup T⟩
  rw [hi, ha, h.slot_iff]
  simp only [Flying, hp]

lemma free (h : P.Slotted) (hL : P.Linked) {p : Pending} (hp : P.pending.get? k = some p)
    (hk : k ∈ P.inflight T) :
    (((P.clearTimer p.timer).deletePending k).decInflight T k).Slotted := by
  have hpending : (((P.clearTimer p.timer).deletePending k).decInflight T k).pending =
    P.pending.delete k := rfl
  have hinf : ∀ T', (((P.clearTimer p.timer).deletePending k).decInflight T k).inflight T' =
      if T' = T then (P.inflight T).filter (· ≠ k) else P.inflight T' :=
    fun T' => inflight_decInflight (P := (P.clearTimer p.timer).deletePending k) T'
  constructor
  · intro T' k'
    rw [hinf]
    constructor
    · intro hk'
      have hold : k' ∈ P.inflight T' ∧ (T' = T → k' ≠ k) := by
        split_ifs at hk' with hT
        · subst hT
          simpa using hk'
        · exact ⟨hk', fun hh => absurd hh hT⟩
      obtain ⟨d, hd, hdT, hdk, pd, hpd, hr⟩ := (h.slot_iff T' k').mp hold.1
      have hne : d.key ≠ k := by
        intro hdk'
        rw [hdk', hp] at hpd
        obtain rfl := Option.some.inj hpd
        have hT : d.targetId = T := h.target hL hk hp hd hr.symm
        exact hold.2 (hdT.symm.trans hT) (hdk.symm.trans hdk')
      exact ⟨d, hd, hdT, hdk, pd, by rw [hpending, OrderedMap.get?_delete_of_ne _ hne, hpd], hr⟩
    · rintro ⟨d, hd, hdT, hdk, pd, hpd, hr⟩
      rw [hpending, OrderedMap.get?_delete] at hpd
      split_ifs at hpd with hdk'
      have hold : k' ∈ P.inflight T' := (h.slot_iff T' k').mpr ⟨d, hd, hdT, hdk, pd, hpd, hr⟩
      have hne : k' ≠ k := hdk ▸ hdk'
      split_ifs with hT
      · subst hT
        simpa [hne] using hold
      · exact hold
  · intro T'
    rw [hinf]
    split_ifs
    · exact (h.nodup T).filter _
    · exact h.nodup T'

lemma fresh_slot (h : P.Slotted) (hnone : P.pending.get? d.key = none) (T : String) :
    d.key ∉ P.inflight T := by
  intro hmem
  obtain ⟨e, _, _, hek, pe, hpe, _⟩ := (h.slot_iff T d.key).mp hmem
  rw [hek, hnone] at hpe
  cases hpe

lemma start (h : P.Slotted) (hL : P.Linked) (hd : d ∈ P.accepted)
    (hnone : P.pending.get? d.key = none) : (P.start d).Slotted := by
  have hpending : (P.start d).pending =
    P.pending.set d.key { resolve := d.resolve, timer := d.timer, onChunk := d.onChunk } := rfl
  have habsent := h.fresh_slot hnone
  constructor
  · intro T k
    rw [inflight_start, if_neg (habsent d.targetId)]
    constructor
    · intro hk
      by_cases hnew : T = d.targetId ∧ k = d.key
      · refine ⟨d, hd, hnew.1.symm, hnew.2.symm, ⟨d.resolve, d.timer, d.onChunk⟩, ?_, rfl⟩
        rw [hpending, OrderedMap.get?_set_self]
      · have hold : k ∈ P.inflight T := by
          split_ifs at hk with hT
          · subst hT
            rcases List.mem_append.mp hk with hk | hk
            · exact hk
            · exact absurd ⟨rfl, List.mem_singleton.mp hk⟩ hnew
          · exact hk
        obtain ⟨e, he, heT, hek, pe, hpe, hr⟩ := (h.slot_iff T k).mp hold
        have hne : e.key ≠ d.key := by
          intro hh
          rw [hh, hnone] at hpe
          cases hpe
        exact ⟨e, he, heT, hek, pe, by rw [hpending, OrderedMap.get?_set_of_ne _ _ hne, hpe], hr⟩
    · rintro ⟨e, he, rfl, rfl, pe, hpe, hr⟩
      rw [hpending, OrderedMap.get?_set] at hpe
      split_ifs at hpe with hek
      · cases hpe
        obtain rfl : e = d := hL.resolve_inj he hd hr.symm
        simp
      · have hold := (h.slot_iff e.targetId e.key).mpr ⟨e, he, rfl, rfl, pe, hpe, hr⟩
        split_ifs with hT
        · rw [← hT]
          exact List.mem_append_left _ hold
        · exact hold
  · intro T
    rw [inflight_start, if_neg (habsent d.targetId)]
    split_ifs
    · rw [List.nodup_append]
      refine ⟨h.nodup _, List.nodup_singleton _, ?_⟩
      intro a ha b hb hab
      rw [hab, List.mem_singleton.mp hb] at ha
      exact habsent _ ha
    · exact h.nodup T

lemma drain (h : P.Slotted) (hL : P.Linked) (hq : q.Sublist (P.queue T)) :
    (drain T P q).Slotted := by
  obtain ⟨es, rest, rfl, _, ⟨rfl, heq⟩ | ⟨d, tl, rfl, _, heq⟩⟩ := drain_spec T q P (hL.unnamed T)
  · rw [heq]
    exact h.of_eq rfl rfl (fun _ => rfl)
  · have hmem : d ∈ P.queue T := hq.subset (by simp)
    have htl : tl.Sublist (P.queue T) :=
      ((List.sublist_cons_self d tl).trans (List.sublist_append_right es _)).trans hq
    have hQ : ((P.expire es).setQueue T tl).Linked := (hL.expire es).setQueue htl
    have hS : ((P.expire es).setQueue T tl).Slotted := h.of_eq rfl rfl (fun _ => rfl)
    rw [heq]
    exact hS.start hQ (hL.queued T d hmem).1 (hL.not_pending hmem)

lemma answer (h : P.Slotted) (hL : P.Linked) {p : Pending} (hp : P.pending.get? k = some p)
    (hk : k ∈ P.inflight T) (r : PortResult) :
    ((((P.clearTimer p.timer).deletePending k).release T k).settle p.resolve r).Slotted := by
  have hfree := h.free hL hp hk
  have hdrain : (((P.clearTimer p.timer).deletePending k).release T k).Slotted :=
    hfree.drain ((hL.free hp).decInflight T k) (List.Sublist.refl _)
  exact hdrain.of_eq rfl rfl (fun _ => rfl)

lemma failInflight (h : P.Slotted) (hL : P.Linked) (T reason : String) :
    (P.failInflight T reason).Slotted := by
  have hpending := fun k => pending_failInflight (P := P) T reason k
  constructor
  · intro T' k
    rw [inflight_failInflight, (Grows.failInflight T reason P).accepted]
    constructor
    · intro hk
      split_ifs at hk with hT
      · simp at hk
      · obtain ⟨d, hd, hdT, hdk, p, hp, hr⟩ := (h.slot_iff T' k).mp hk
        have hkept : d.key ∉ P.inflight T := by
          intro hmem
          exact hT (hdT.symm.trans (h.target hL hmem hp hd hr.symm))
        exact ⟨d, hd, hdT, hdk, p, by rw [hpending, if_neg hkept, hp], hr⟩
    · rintro ⟨d, hd, rfl, rfl, p, hp, hr⟩
      rw [hpending] at hp
      split_ifs at hp with hin
      have hold := h.mem_of_pending hd hp hr
      split_ifs with hT
      · exact absurd (hT ▸ hold) hin
      · exact hold
  · intro T'
    rw [inflight_failInflight]
    split_ifs
    · exact List.nodup_nil
    · exact h.nodup T'

end Slotted

/-- The caps hold, and an item only waits while its target is full. -/
structure Admitting (cap : String → ℕ) (P : Ports) : Prop where
  bounded : ∀ T, (P.inflight T).length ≤ cap T
  conserving : ∀ T, P.queue T ≠ [] → (P.inflight T).length = cap T

variable {cap : String → ℕ}

lemma Admitting.drain (hL : P.Linked) (hS : P.Slotted) (hq : q.Sublist (P.queue T))
    (hslot : (P.inflight T).length < cap T) (hfull : q ≠ [] → (P.inflight T).length + 1 = cap T)
    (hrest : ∀ T', T' ≠ T → (P.inflight T').length ≤ cap T' ∧
      (P.queue T' ≠ [] → (P.inflight T').length = cap T')) :
    (drain T P q).Admitting cap := by
  obtain ⟨es, rest, rfl, _, ⟨rfl, heq⟩ | ⟨d, tl, rfl, _, heq⟩⟩ := drain_spec T q P (hL.unnamed T)
  · have hinf : ∀ T', (Ports.drain T P (es ++ [])).inflight T' = P.inflight T' := fun T' => by
      rw [heq]
      rfl
    have hqueue : ∀ T', (Ports.drain T P (es ++ [])).queue T' = if T' = T then [] else P.queue T' :=
      fun T' => by
        rw [heq, queue_setQueue]
        rfl
    constructor
    · intro T'
      rw [hinf]
      by_cases hT : T' = T
      · rw [hT]
        omega
      · exact (hrest T' hT).1
    · intro T' hne
      rw [hqueue] at hne
      split_ifs at hne with hT
      · exact absurd rfl hne
      · rw [hinf]
        exact (hrest T' hT).2 hne
  · have hmem : d ∈ P.queue T := hq.subset (by simp)
    have hdT : d.targetId = T := (hL.queued T d hmem).2
    have hfresh := hS.fresh_slot (hL.not_pending hmem)
    have hinf : ∀ T', (Ports.drain T P (es ++ d :: tl)).inflight T' =
        if T' = T then P.inflight T ++ [d.key] else P.inflight T' := by
      intro T'
      rw [heq, inflight_start, hdT]
      have hsame : ∀ U, ((P.expire es).setQueue T tl).inflight U = P.inflight U := fun _ => rfl
      rw [hsame, hsame, if_neg (hfresh T)]
    have hqueue : ∀ T', (Ports.drain T P (es ++ d :: tl)).queue T' =
        if T' = T then tl else P.queue T' := by
      intro T'
      have hstart : (((P.expire es).setQueue T tl).start d).queue T' =
        ((P.expire es).setQueue T tl).queue T' := rfl
      rw [heq, hstart, queue_setQueue]
      rfl
    have hcap := hfull (by simp)
    constructor
    · intro T'
      rw [hinf]
      split_ifs with hT
      · rw [List.length_append, List.length_singleton, hT]
        omega
      · exact (hrest T' hT).1
    · intro T' hne
      rw [hqueue] at hne
      rw [hinf]
      split_ifs at hne ⊢ with hT
      · rw [List.length_append, List.length_singleton, hT]
        omega
      · exact (hrest T' hT).2 hne

/-- Gate items go first, items of one tier in the order of their acceptance. -/
def Before (a b : Delivery) : Prop :=
  (a.priority = .gate ∧ b.priority = .normal) ∨ (a.priority = b.priority ∧ a.resolve < b.resolve)

def Tiered (P : Ports) : Prop := ∀ T, (P.queue T).Pairwise Before

lemma insertByPriority_cons (d w : Delivery) (q : List Delivery) :
    insertByPriority d (w :: q) =
      if w.priority = .normal ∧ d.priority = .gate then d :: w :: q
      else w :: insertByPriority d q := by
  unfold insertByPriority
  rw [List.findIdx?_cons]
  by_cases h : w.priority = .normal ∧ d.priority = .gate
  · simp [h]
  · have hb : (decide (w.priority = .normal) && decide (d.priority = .gate)) = false := by
      simpa using h
    rw [if_neg h]
    simp only [hb]
    cases q.findIdx? (fun w => w.priority = .normal && d.priority = .gate) <;> simp

lemma insertByPriority_before (d : Delivery) (q : List Delivery) (hq : q.Pairwise Before)
    (hnew : ∀ w ∈ q, w.resolve < d.resolve) : (insertByPriority d q).Pairwise Before := by
  induction q with
  | nil => simp [insertByPriority]
  | cons w rest ih =>
    obtain ⟨hw, hsorted⟩ := List.pairwise_cons.mp hq
    have hrest := ih hsorted (fun e he => hnew e (List.mem_cons_of_mem _ he))
    have hlt := hnew w List.mem_cons_self
    rw [insertByPriority_cons]
    split_ifs with hsplit
    · obtain ⟨hnormal, hgate⟩ := hsplit
      apply List.pairwise_cons.mpr ⟨?_, hq⟩
      intro e he
      rcases List.mem_cons.mp he with rfl | he
      · exact Or.inl ⟨hgate, hnormal⟩
      · refine Or.inl ⟨hgate, ?_⟩
        rcases hw e he with ⟨hg, _⟩ | ⟨hsame, _⟩
        · rw [hnormal] at hg
          cases hg
        · rw [← hsame, hnormal]
    · apply List.pairwise_cons.mpr ⟨?_, hrest⟩
      intro e he
      rcases List.mem_cons.mp ((insertByPriority_perm d rest).subset he) with rfl | he
      · cases hpw : w.priority with
        | gate =>
          cases hpe : e.priority with
          | gate => exact Or.inr ⟨hpw.trans hpe.symm, hlt⟩
          | normal => exact Or.inl ⟨hpw, hpe⟩
        | normal =>
          cases hpe : e.priority with
          | gate => exact absurd ⟨hpw, hpe⟩ hsplit
          | normal => exact Or.inr ⟨hpw.trans hpe.symm, hlt⟩
      · exact hw e he

lemma drain_queue (hL : P.Linked) (hq : q.Sublist (P.queue T)) (T' : String) :
    ((drain T P q).queue T').Sublist (P.queue T') := by
  obtain ⟨es, rest, rfl, _, hcases⟩ := drain_spec T q P (hL.unnamed T)
  have hqueue : ∃ tl, tl.Sublist rest ∧ (drain T P (es ++ rest)).queue T' =
      if T' = T then tl else P.queue T' := by
    rcases hcases with ⟨rfl, heq⟩ | ⟨d, tl, rfl, _, heq⟩
    · refine ⟨[], List.Sublist.refl _, ?_⟩
      rw [heq, queue_setQueue]
      rfl
    · refine ⟨tl, List.sublist_cons_self d tl, ?_⟩
      have hstart : (((P.expire es).setQueue T tl).start d).queue T' =
        ((P.expire es).setQueue T tl).queue T' := rfl
      rw [heq, hstart, queue_setQueue]
      rfl
  obtain ⟨tl, htl, heq⟩ := hqueue
  rw [heq]
  split_ifs with hT
  · subst hT
    exact (htl.trans (List.sublist_append_right es rest)).trans hq
  · exact List.Sublist.refl _

structure Disciplined (cap : String → ℕ) (P : Ports) : Prop where
  sound : P.Sound
  slotted : P.Slotted
  admitting : P.Admitting cap
  tiered : P.Tiered

namespace Disciplined

lemma of_tables {Q : Ports} (h : Q.Disciplined cap) (hs : P.Sound) (ha : P.accepted = Q.accepted)
    (hp : P.pending = Q.pending) (hi : P.inflightByCompartment = Q.inflightByCompartment)
    (hw : P.waiting = Q.waiting) : P.Disciplined cap := by
  have hinf : ∀ T, P.inflight T = Q.inflight T := fun T => by simp only [inflight, hi]
  have hqueue : ∀ T, P.queue T = Q.queue T := fun T => by simp only [queue, hw]
  refine ⟨hs, h.slotted.of_eq ha hp hinf, ⟨fun T => ?_, fun T hne => ?_⟩, fun T => ?_⟩
  · rw [hinf]
    exact h.admitting.bounded T
  · rw [hinf]
    exact h.admitting.conserving T (hqueue T ▸ hne)
  · rw [hqueue]
    exact h.tiered T

/-- A target without deliveries may change its cap. -/
lemma recap {cap' : String → ℕ} (h : P.Disciplined cap)
    (hcap : ∀ d ∈ P.accepted, cap' d.targetId = cap d.targetId) : P.Disciplined cap' := by
  refine ⟨h.sound, h.slotted, ⟨fun T => ?_, fun T hne => ?_⟩, h.tiered⟩
  · cases hi : P.inflight T with
    | nil => exact Nat.zero_le _
    | cons k rest =>
      obtain ⟨d, hd, rfl, _⟩ := (h.slotted.slot_iff T k).mp (hi ▸ List.mem_cons_self)
      rw [← hi, hcap d hd]
      exact h.admitting.bounded d.targetId
  · obtain ⟨d, hd⟩ := List.exists_mem_of_ne_nil _ hne
    obtain ⟨hda, rfl⟩ := h.sound.linked.queued T d hd
    rw [hcap d hda]
    exact h.admitting.conserving d.targetId hne

lemma empty : ({} : Ports).Disciplined cap := by
  refine ⟨Sound.empty, ⟨fun T k => ?_, fun T => ?_⟩, ⟨fun T => ?_, fun T hne => ?_⟩, fun T => ?_⟩
  · simp [inflight]
  · simp [inflight]
  · simp [inflight]
  · simp [queue] at hne
  · simp [queue]

lemma post (h : P.Disciplined cap) (T : String) (m : ToWorker) : (P.post T m).Disciplined cap :=
  h.of_tables (h.sound.post T m) rfl rfl rfl rfl

lemma receive (h : P.Disciplined cap) (T : String) (m : FromWorker) :
    (P.receive T m).Disciplined cap :=
  h.of_tables (h.sound.receive T m) rfl rfl rfl rfl

lemma advance (h : P.Disciplined cap) (ms : ℕ) : (P.advance ms).Disciplined cap :=
  h.of_tables (h.sound.advance ms) rfl rfl rfl rfl

lemma onChunk (h : P.Disciplined cap) (k : CausationId) (c : StreamChunk) :
    (P.onChunk k c).Disciplined cap := by
  have hs := h.sound.onChunk k c
  unfold Ports.onChunk at *
  split at hs
  · exact h
  · split_ifs at hs ⊢
    · exact h.of_tables hs rfl rfl rfl rfl
    · exact h

/-- A slot is given back with its pending entry: the next live item takes it. -/
lemma answer (h : P.Disciplined cap) {p : Pending} (hp : P.pending.get? k = some p)
    (hk : k ∈ P.inflight T) (r : PortResult) :
    ((((P.clearTimer p.timer).deletePending k).release T k).settle p.resolve r).Disciplined cap := by
  let F := ((P.clearTimer p.timer).deletePending k).decInflight T k
  have hL : F.Linked := (h.sound.linked.free hp).decInflight T k
  have hS : F.Slotted := h.slotted.free h.sound.linked hp hk
  have hinf : ∀ T', F.inflight T' = if T' = T then (P.inflight T).filter (· ≠ k) else P.inflight T' :=
    fun T' => inflight_decInflight (P := (P.clearTimer p.timer).deletePending k) T'
  have hqueue : ∀ T', F.queue T' = P.queue T' := fun _ => rfl
  have hlen : (F.inflight T).length + 1 = (P.inflight T).length := by
    have herase := (h.slotted.nodup T).erase_eq_filter k
    have hlength := List.length_erase_of_mem hk
    have hpos := List.length_pos_of_mem hk
    have hsame : F.inflight T = (P.inflight T).erase k := by
      rw [hinf, if_pos rfl, herase]
      apply List.filter_congr
      intro x _
      by_cases hx : x = k <;> simp [hx]
    rw [hsame]
    omega
  have hslots : (F.drain T (F.queue T)).Admitting cap := by
    have hb := h.admitting.bounded T
    apply Admitting.drain hL hS (List.Sublist.refl _)
    · omega
    · intro hne
      rw [hlen]
      exact h.admitting.conserving T hne
    · intro T' hT
      rw [hinf, if_neg hT]
      exact ⟨h.admitting.bounded T', h.admitting.conserving T'⟩
  refine ⟨h.sound.answer hp T r, h.slotted.answer h.sound.linked hp hk r,
    ⟨hslots.bounded, hslots.conserving⟩, fun T' => ?_⟩
  exact (h.tiered T').sublist (drain_queue hL (List.Sublist.refl _) T')

lemma onReturn (h : P.Disciplined cap) (hk : P.pending.get? k = none ∨ k ∈ P.inflight T)
    (r : PortResult) : (P.onReturn T k r).Disciplined cap := by
  unfold Ports.onReturn
  cases hp : P.pending.get? k with
  | none => exact h
  | some p =>
    have hmem : k ∈ P.inflight T := by
      rcases hk with hnone | hmem
      · rw [hp] at hnone
        cases hnone
      · exact hmem
    exact h.answer hp hmem r

lemma onDeadline (h : P.Disciplined cap) (hd : P.timers.get? d.resolve = some d) :
    (P.onDeadline d).Disciplined cap := by
  obtain ⟨p, hp, hr, heq⟩ := h.sound.onDeadline_eq hd
  have hda := (h.sound.linked.armed _ d hd).1
  rw [heq]
  exact h.answer hp (h.slotted.mem_of_pending hda hp hr) _

lemma failInflight (h : P.Disciplined cap) (T reason : String) :
    (P.failInflight T reason).Disciplined cap := by
  refine ⟨h.sound.failInflight T reason, h.slotted.failInflight h.sound.linked T reason,
    ⟨fun T' => ?_, fun T' hne => ?_⟩, fun T' => ?_⟩
  · rw [inflight_failInflight]
    split_ifs
    · exact Nat.zero_le _
    · exact h.admitting.bounded T'
  · rw [queue_failInflight] at hne
    rw [inflight_failInflight]
    split_ifs at hne ⊢ with hT
    · exact absurd rfl hne
    · exact h.admitting.conserving T' hne
  · rw [queue_failInflight]
    split_ifs
    · exact List.Pairwise.nil
    · exact h.tiered T'

lemma accept (h : P.Disciplined cap) (T : String) (msg : DeliverMsg) (onChunk : Bool)
    (priority : PortPriority) (hfree : P.keyed msg.causationId = 0) (hkey : msg.causationId ≠ "") :
    (P.accept (cap T) T msg onChunk priority).Disciplined cap := by
  let d := P.newDelivery T msg onChunk priority
  let Q : Ports := { P with accepted := P.accepted ++ [d] }
  have hsound := h.sound.accept (cap T) T msg onChunk priority hfree hkey
  have hQ : Q.Linked := h.sound.linked.accepted rfl hkey
  have hd : d ∈ Q.accepted := by simp [Q]
  have hnone : Q.pending.get? d.key = none := pending_of_keyed hfree
  have hS : Q.Slotted := by
    refine ⟨fun T' k => ?_, h.slotted.nodup⟩
    have hold := h.slotted.slot_iff T' k
    have hinf : Q.inflight T' = P.inflight T' := rfl
    rw [hinf, hold]
    constructor
    · rintro ⟨e, he, hrest⟩
      exact ⟨e, List.mem_append_left _ he, hrest⟩
    · rintro ⟨e, he, heT, hek, p, hp, hr⟩
      rcases List.mem_append.mp he with he | he
      · exact ⟨e, he, heT, hek, p, hp, hr⟩
      · rw [List.mem_singleton.mp he, hnone] at hp
        cases hp
  have heq : P.accept (cap T) T msg onChunk priority = Q.enqueue (cap T) d := rfl
  rw [heq] at hsound ⊢
  unfold enqueue at *
  split_ifs at hsound ⊢ with hslot
  · have hslots : Q.admitItem d = Q.start d := by
      rw [admitItem, if_neg (not_expired_at_accept rfl)]
    rw [hslots] at hsound ⊢
    have hfresh := hS.fresh_slot hnone
    have hinf : ∀ T', (Q.start d).inflight T' =
        if T' = T then P.inflight T ++ [d.key] else P.inflight T' := by
      intro T'
      rw [inflight_start, if_neg (hfresh d.targetId)]
      rfl
    have hlt : (P.inflight T).length < cap T := hslot
    have hqueue : ∀ T', (Q.start d).queue T' = P.queue T' := fun _ => rfl
    refine ⟨hsound, hS.start hQ hd hnone, ⟨fun T' => ?_, fun T' hne => ?_⟩, h.tiered⟩
    · rw [hinf]
      split_ifs with hT
      · rw [List.length_append, List.length_singleton, hT]
        omega
      · exact h.admitting.bounded T'
    · rw [hinf]
      have hcons := h.admitting.conserving T' hne
      split_ifs with hT
      · subst hT
        omega
      · exact hcons
  · have hlen : (P.inflight T).length = cap T := by
      have hb := h.admitting.bounded T
      have hge : ¬ (P.inflight T).length < cap T := hslot
      omega
    have hqueue : ∀ T', (Q.setQueue T (insertByPriority d (P.queue T))).queue T' =
      if T' = T then insertByPriority d (P.queue T) else P.queue T' := queue_setQueue
    refine ⟨hsound, hS.of_eq rfl rfl (fun _ => rfl), ⟨h.admitting.bounded, fun T' hne => ?_⟩,
      fun T' => ?_⟩
    · have hne' : (Q.setQueue T (insertByPriority d (P.queue T))).queue T' ≠ [] := hne
      rw [hqueue] at hne'
      split_ifs at hne' with hT
      · subst hT
        exact hlen
      · exact h.admitting.conserving T' hne'
    · have hsort : ((Q.setQueue T (insertByPriority d (P.queue T))).queue T').Pairwise Before := by
        rw [hqueue]
        split_ifs with hT
        · apply insertByPriority_before d _ (h.tiered T)
          intro w hw
          exact h.sound.linked.resolve_lt (h.sound.linked.queued T w hw).1
        · exact h.tiered T'
      exact hsort

end Disciplined

/-! ### What a freed slot and a failed compartment settle -/

lemma drain_other (hL : P.Linked) (hq : q.Sublist (P.queue T)) {T' : String} (hT : T' ≠ T) :
    (drain T P q).inflight T' = P.inflight T' ∧ (drain T P q).queue T' = P.queue T' := by
  obtain ⟨es, rest, rfl, _, ⟨rfl, heq⟩ | ⟨d, tl, rfl, _, heq⟩⟩ := drain_spec T q P (hL.unnamed T)
  · rw [heq]
    refine ⟨rfl, ?_⟩
    rw [queue_setQueue, if_neg hT]
    rfl
  · have hdT : d.targetId = T := (hL.queued T d (hq.subset (by simp))).2
    rw [heq]
    constructor
    · rw [inflight_start, if_neg (hdT.symm ▸ hT)]
      rfl
    · have hstart : (((P.expire es).setQueue T tl).start d).queue T' =
        ((P.expire es).setQueue T tl).queue T' := rfl
      rw [hstart, queue_setQueue, if_neg hT]
      rfl

lemma answer_other (hL : P.Linked) {p : Pending} (hp : P.pending.get? k = some p) {T' : String}
    (hT : T' ≠ T) (r : PortResult) :
    ((((P.clearTimer p.timer).deletePending k).release T k).settle p.resolve r).inflight T' =
        P.inflight T' ∧
      ((((P.clearTimer p.timer).deletePending k).release T k).settle p.resolve r).queue T' =
        P.queue T' := by
  have hfree : (((P.clearTimer p.timer).deletePending k).decInflight T k).Linked :=
    (hL.free hp).decInflight T k
  obtain ⟨hinf, hqueue⟩ := drain_other hfree (List.Sublist.refl _) hT
  refine ⟨hinf.trans ?_, hqueue⟩
  rw [inflight_decInflight, if_neg hT]
  rfl

/-- Entries of the pending table under other keys survive. -/
lemma answer_pending (hL : P.Linked) {p p' : Pending} (hp : P.pending.get? k = some p)
    {k' : CausationId} (hk : k' ≠ k) (hp' : P.pending.get? k' = some p') (r : PortResult) :
    ((((P.clearTimer p.timer).deletePending k).release T k).settle p.resolve r).pending.get? k' =
      some p' := by
  let F := ((P.clearTimer p.timer).deletePending k).decInflight T k
  have hfree : F.Linked := (hL.free hp).decInflight T k
  have hF : F.pending.get? k' = some p' := by
    have hdel : F.pending = P.pending.delete k := rfl
    rw [hdel, OrderedMap.get?_delete_of_ne _ hk, hp']
  obtain ⟨es, rest, hq, _, ⟨_, heq⟩ | ⟨d, tl, hrest, _, heq⟩⟩ :=
    drain_spec T (F.queue T) F (hfree.unnamed T)
  · have hsame : (drain T F (F.queue T)).pending.get? k' = F.pending.get? k' := by
      rw [heq]
      rfl
    exact hsame.trans hF
  · have hmem : d ∈ F.queue T := by
      rw [hq, hrest]
      simp
    have hne : k' ≠ d.key := by
      rintro rfl
      rw [hfree.not_pending hmem] at hF
      cases hF
    have hsame : (drain T F (F.queue T)).pending.get? k' = F.pending.get? k' := by
      rw [heq]
      exact OrderedMap.get?_set_of_ne _ _ hne
    exact hsame.trans hF

lemma drain_resolved (hL : P.Linked) {e : ℕ × PortResult} (he : e ∈ (drain T P q).resolved) :
    e ∈ P.resolved ∨ ∃ d ∈ q, d.Expired P.now ∧ e = (d.resolve, expiredInQueue d) := by
  have hexpire : ∀ {es : List Delivery}, (∀ d ∈ es, d.Expired P.now) → e ∈ (P.expire es).resolved →
      e ∈ P.resolved ∨ ∃ d ∈ es, d.Expired P.now ∧ e = (d.resolve, expiredInQueue d) := by
    intro es hes hmem
    rcases List.mem_append.mp hmem with hold | hnew
    · exact .inl hold
    · obtain ⟨d, hd, rfl⟩ := List.mem_map.mp hnew
      exact .inr ⟨d, hd, hes d hd, rfl⟩
  obtain ⟨es, rest, rfl, hes, ⟨_, heq⟩ | ⟨d, tl, _, _, heq⟩⟩ := drain_spec T q P (hL.unnamed T)
  · rw [heq] at he
    exact (hexpire hes he).imp_right (fun ⟨d, hd, h⟩ => ⟨d, List.mem_append_left _ hd, h⟩)
  · rw [heq] at he
    exact (hexpire hes he).imp_right (fun ⟨d, hd, h⟩ => ⟨d, List.mem_append_left _ hd, h⟩)

lemma answer_resolved (hL : P.Linked) {p : Pending} (hp : P.pending.get? k = some p) {r : PortResult}
    {e : ℕ × PortResult}
    (he : e ∈ ((((P.clearTimer p.timer).deletePending k).release T k).settle p.resolve r).resolved) :
    e ∈ P.resolved ∨ e = (p.resolve, r) ∨
      ∃ d ∈ P.queue T, d.Expired P.now ∧ e = (d.resolve, expiredInQueue d) := by
  have hfree : (((P.clearTimer p.timer).deletePending k).decInflight T k).Linked :=
    (hL.free hp).decInflight T k
  rcases List.mem_append.mp he with hdrain | hself
  · rcases drain_resolved hfree hdrain with hold | hexpired
    · exact .inl hold
    · exact .inr (.inr hexpired)
  · exact .inr (.inl (List.mem_singleton.mp hself))

lemma failKeys_resolved {r : PortResult} {keys : List CausationId} {e : ℕ × PortResult}
    (he : e ∈ (keys.foldl (failKey r) P).resolved) :
    e ∈ P.resolved ∨ ∃ k ∈ keys, ∃ p, P.pending.get? k = some p ∧ e = (p.resolve, r) := by
  induction keys generalizing P with
  | nil => exact .inl he
  | cons k rest ih =>
    have hone : ∀ k' p, (failKey r P k).pending.get? k' = some p → P.pending.get? k' = some p := by
      intro k' p hp
      unfold failKey at hp
      cases hk : P.pending.get? k with
      | none => simpa [hk] using hp
      | some _ =>
        simp only [hk, settle, deletePending, clearTimer, OrderedMap.get?_delete] at hp
        split_ifs at hp
        exact hp
    rcases ih he with hold | ⟨k', hk', p, hp, rfl⟩
    · unfold failKey at hold
      cases hk : P.pending.get? k with
      | none => exact .inl (by simpa [hk] using hold)
      | some p =>
        rw [hk] at hold
        rcases List.mem_append.mp hold with hold | hself
        · exact .inl hold
        · exact .inr ⟨k, List.mem_cons_self, p, hk, List.mem_singleton.mp hself⟩
    · exact .inr ⟨k', List.mem_cons_of_mem _ hk', p, hone k' p hp, rfl⟩

lemma failWaiting_resolved {r : PortResult} {q : List Delivery} {e : ℕ × PortResult}
    (he : e ∈ (failWaiting r P q).resolved) : e ∈ P.resolved ∨ ∃ d ∈ q, e = (d.resolve, r) := by
  induction q generalizing P with
  | nil => exact .inl he
  | cons d rest ih =>
    rcases ih he with hold | ⟨d', hd', rfl⟩
    · rcases List.mem_append.mp hold with hold | hself
      · exact .inl hold
      · exact .inr ⟨d, List.mem_cons_self, List.mem_singleton.mp hself⟩
    · exact .inr ⟨d', List.mem_cons_of_mem _ hd', rfl⟩

lemma failInflight_error {reason : String} {i : ℕ} {r : PortResult}
    (he : (i, r) ∈ (P.failInflight T reason).resolved) :
    (i, r) ∈ P.resolved ∨ r = .fail .degraded reason := by
  rcases failKeys_resolved he with hold | ⟨_, _, _, _, heq⟩
  · exact (failWaiting_resolved hold).imp_right (fun ⟨_, _, heq⟩ => (Prod.mk.inj heq).2)
  · exact .inr (Prod.mk.inj heq).2

lemma failInflight_resolved (hL : P.Linked) (hS : P.Slotted) {reason : String}
    {e : ℕ × PortResult} (he : e ∈ (P.failInflight T reason).resolved) :
    e ∈ P.resolved ∨
      ∃ d ∈ P.accepted, d.targetId = T ∧ e = (d.resolve, .fail .degraded reason) := by
  rcases failKeys_resolved he with hold | ⟨k, hk, p, hp, rfl⟩
  · rcases failWaiting_resolved hold with hold | ⟨d, hd, rfl⟩
    · exact .inl hold
    · obtain ⟨hda, hdT⟩ := hL.queued T d hd
      exact .inr ⟨d, hda, hdT, rfl⟩
  · have hin : k ∈ P.inflight T := by
      simpa [inflight, dropQueue, failWaiting_inflight] using hk
    have hpending : P.pending.get? k = some p := by
      simpa [dropQueue, failWaiting_pending] using hp
    obtain ⟨d, hd, _, hdr, _⟩ := hL.pended k p hpending
    exact .inr ⟨d, hd, hS.target hL hin hpending hd hdr, by rw [hdr]⟩

lemma accept_resolved (cap : ℕ) (T : String) (msg : DeliverMsg) (onChunk : Bool)
    (priority : PortPriority) : (P.accept cap T msg onChunk priority).resolved = P.resolved := by
  have hstart : ¬ (P.newDelivery T msg onChunk priority).Expired P.now := not_expired_at_accept rfl
  unfold accept enqueue
  dsimp only
  split_ifs
  · rw [admitItem, if_neg hstart]
    rfl
  · rfl

/-! ### Time passes and chunks are handed out elsewhere -/

structure Still (P Q : Ports) : Prop where
  now : Q.now = P.now
  chunks : Q.chunks = P.chunks

namespace Still

lemma trans {P Q S : Ports} (h : Still P Q) (h' : Still Q S) : Still P S :=
  ⟨h'.now.trans h.now, h'.chunks.trans h.chunks⟩

lemma drain (T : String) (q : List Delivery) (P : Ports) : Still P (Ports.drain T P q) := by
  induction q generalizing P with
  | nil => exact ⟨rfl, rfl⟩
  | cons d rest ih =>
    rw [Ports.drain]
    split_ifs
    · let Q := (P.settle d.resolve (expiredInQueue d)).decInflight T ""
      have hQ : Still P Q := ⟨rfl, rfl⟩
      exact hQ.trans (ih Q)
    · exact ⟨rfl, rfl⟩

lemma failWaiting (r : PortResult) (q : List Delivery) (P : Ports) :
    Still P (Ports.failWaiting r P q) := by
  induction q generalizing P with
  | nil => exact ⟨rfl, rfl⟩
  | cons d rest ih =>
    have hone : Still P (P.settle d.resolve r) := ⟨rfl, rfl⟩
    exact hone.trans (ih _)

lemma failKeys (r : PortResult) (keys : List CausationId) (P : Ports) :
    Still P (keys.foldl (failKey r) P) := by
  induction keys generalizing P with
  | nil => exact ⟨rfl, rfl⟩
  | cons k rest ih =>
    have hone : Still P (failKey r P k) := by
      unfold failKey
      cases P.pending.get? k <;> exact ⟨rfl, rfl⟩
    exact hone.trans (ih _)

lemma onReturn (T : String) (k : CausationId) (r : PortResult) (P : Ports) :
    Still P (P.onReturn T k r) := by
  unfold Ports.onReturn
  cases P.pending.get? k with
  | none => exact ⟨rfl, rfl⟩
  | some p =>
    have hdrain := drain T (P.queue T) (((P.clearTimer p.timer).deletePending k).decInflight T k)
    exact ⟨hdrain.now, hdrain.chunks⟩

lemma onDeadline (d : Delivery) (P : Ports) : Still P (P.onDeadline d) := by
  unfold Ports.onDeadline
  dsimp only
  split_ifs
  · have hdrain := drain d.targetId (P.queue d.targetId)
      (((P.clearTimer (some d.resolve)).deletePending d.key).decInflight d.targetId d.key)
    exact ⟨hdrain.now, hdrain.chunks⟩
  · exact ⟨rfl, rfl⟩

lemma failInflight (T reason : String) (P : Ports) : Still P (P.failInflight T reason) := by
  have hwaiting := failWaiting (.fail .degraded reason) (P.queue T) P
  have hkeys := failKeys (.fail .degraded reason)
    (((Ports.failWaiting (.fail .degraded reason) P (P.queue T)).dropQueue T).inflight T)
    ((Ports.failWaiting (.fail .degraded reason) P (P.queue T)).dropQueue T)
  exact ⟨hkeys.now.trans hwaiting.now, hkeys.chunks.trans hwaiting.chunks⟩

lemma accept (cap : ℕ) (T : String) (msg : DeliverMsg) (onChunk : Bool) (priority : PortPriority)
    (P : Ports) : Still P (P.accept cap T msg onChunk priority) := by
  have hstart : ¬ (P.newDelivery T msg onChunk priority).Expired P.now := not_expired_at_accept rfl
  unfold Ports.accept enqueue
  dsimp only
  split_ifs
  · rw [admitItem, if_neg hstart]
    exact ⟨rfl, rfl⟩
  · exact ⟨rfl, rfl⟩

end Still

end Ports

end VivimOmega.Host

import VivimOmega.Host.Turns

/-! What is put on the wire: every `deliver` a compartment is sent is a delivery accepted for it. -/

namespace VivimOmega.Host

open Library Contracts

namespace Ports

variable {P : Ports} {T : String} {d : Delivery} {q : List Delivery} {k : CausationId}

/-- At most one `deliver` is posted, for an item of the queue. -/
def Serves (P : Ports) (q : List Delivery) (trace : List Wire) : Prop :=
  trace = P.trace ∨ ∃ d ∈ q, trace = .posted d.targetId (.deliver d.msg) :: P.trace

lemma drain_trace (hL : P.Linked) : P.Serves q (drain T P q).trace := by
  obtain ⟨es, rest, rfl, _, ⟨_, heq⟩ | ⟨d, tl, rfl, _, heq⟩⟩ := drain_spec T q P (hL.unnamed T)
  · exact .inl (by rw [heq]; rfl)
  · exact .inr ⟨d, by simp, by rw [heq]; rfl⟩

lemma answer_trace (hL : P.Linked) {p : Pending} (hp : P.pending.get? k = some p) (T : String)
    (r : PortResult) :
    P.Serves (P.queue T)
      ((((P.clearTimer p.timer).deletePending k).release T k).settle p.resolve r).trace := by
  have hfree : (((P.clearTimer p.timer).deletePending k).decInflight T k).Linked :=
    (hL.free hp).decInflight T k
  exact drain_trace (T := T) (q := P.queue T) hfree

lemma onReturn_trace (hL : P.Linked) (T : String) (k : CausationId) (r : PortResult) :
    P.Serves (P.queue T) (P.onReturn T k r).trace := by
  unfold onReturn
  cases hp : P.pending.get? k with
  | none => exact .inl rfl
  | some p => exact answer_trace hL hp T r

lemma onDeadline_trace (h : P.Sound) (hd : P.timers.get? d.resolve = some d) :
    P.Serves (P.queue d.targetId) (P.onDeadline d).trace := by
  obtain ⟨p, hp, _, heq⟩ := h.onDeadline_eq hd
  rw [heq]
  exact answer_trace h.linked hp d.targetId _

lemma onChunk_trace (k : CausationId) (c : StreamChunk) (P : Ports) :
    (P.onChunk k c).trace = P.trace := by
  unfold onChunk
  split
  · rfl
  · split_ifs <;> rfl

lemma failWaiting_trace (r : PortResult) (q : List Delivery) (P : Ports) :
    (failWaiting r P q).trace = P.trace := by
  induction q generalizing P with
  | nil => rfl
  | cons d rest ih =>
    rw [failWaiting, ih]
    rfl

lemma failKeys_trace (r : PortResult) (keys : List CausationId) (P : Ports) :
    (keys.foldl (failKey r) P).trace = P.trace := by
  induction keys generalizing P with
  | nil => rfl
  | cons k rest ih =>
    rw [List.foldl_cons, ih, failKey]
    cases P.pending.get? k <;> rfl

lemma failInflight_trace (T reason : String) (P : Ports) :
    (P.failInflight T reason).trace = P.trace := by
  have hkeys := failKeys_trace (.fail .degraded reason)
    (((failWaiting (.fail .degraded reason) P (P.queue T)).dropQueue T).inflight T)
    ((failWaiting (.fail .degraded reason) P (P.queue T)).dropQueue T)
  exact hkeys.trans (failWaiting_trace _ _ P)

lemma accept_trace (cap : ℕ) (T : String) (msg : DeliverMsg) (onChunk : Bool)
    (priority : PortPriority) :
    P.Serves [P.newDelivery T msg onChunk priority] (P.accept cap T msg onChunk priority).trace := by
  have hstart : ¬ (P.newDelivery T msg onChunk priority).Expired P.now := not_expired_at_accept rfl
  unfold accept enqueue
  dsimp only
  split_ifs
  · rw [admitItem, if_neg hstart]
    exact .inr ⟨_, List.mem_cons_self, rfl⟩
  · exact .inl rfl

end Ports

namespace PortRouter

variable {R R' : PortRouter} {manifests : OrderedMap String PluginManifest} {e : Event}

def IsDeliver : Wire → Prop
  | .posted _ (.deliver _) => True
  | _ => False

/-- What is new on the wire is no `deliver`, or one for a delivery that was accepted before. -/
def Relays (P Q : Ports) : Prop :=
  ∃ ws, Q.trace = ws ++ P.trace ∧
    ∀ w ∈ ws, IsDeliver w → ∃ d ∈ P.accepted, w = .posted d.targetId (.deliver d.msg)

lemma relays_quiet {P Q : Ports} {w : Wire} (ht : Q.trace = w :: P.trace) (hw : ¬ IsDeliver w) :
    Relays P Q := by
  refine ⟨[w], ht, fun w' hw' hd => ?_⟩
  obtain rfl := List.mem_singleton.mp hw'
  exact absurd hd hw

lemma relays_same {P Q : Ports} (ht : Q.trace = P.trace) : Relays P Q :=
  ⟨[], ht, fun w hw => by cases hw⟩

lemma relays_serves {P Q : Ports} {T : String} (hL : P.Linked)
    (h : P.Serves (P.queue T) Q.trace) : Relays P Q := by
  rcases h with hsame | ⟨d, hd, hpost⟩
  · exact relays_same hsame
  · refine ⟨[.posted d.targetId (.deliver d.msg)], hpost, fun w hw _ => ?_⟩
    exact ⟨d, (hL.queued T d hd).1, List.mem_singleton.mp hw⟩

lemma relays_after {P Q : Ports} {w : Wire} (P' : Ports) (ht : P'.trace = w :: P.trace) (hw : ¬ IsDeliver w)
    (ha : P'.accepted = P.accepted) (h : Relays P' Q) : Relays P Q := by
  obtain ⟨ws, htrace, hws⟩ := h
  refine ⟨ws ++ [w], by rw [htrace, ht, List.append_assoc]; rfl, fun w' hw' hd => ?_⟩
  rcases List.mem_append.mp hw' with hw' | hw'
  · exact ha ▸ hws w' hw' hd
  · obtain rfl := List.mem_singleton.mp hw'
    exact absurd hd hw

lemma Move.relays {P Q : Ports} (hm : Move R e P Q) (hP : P.Sound) :
    Relays P Q ∨ ∃ target msg onChunk, Q = P.accept (R.routes.maxInflight target) target msg onChunk
      (R.routes.priorityOf msg.op) := by
  cases hm with
  | post _ id m hm =>
    refine .inl (relays_quiet rfl (w := .posted id m) ?_)
    cases m with
    | deliver msg => exact absurd rfl (hm msg)
    | init => exact not_false
    | result => exact not_false
    | shutdown => exact not_false
  | receive _ id m => exact .inl (relays_quiet rfl (w := .received id m) not_false)
  | enrolled => exact .inl (relays_same rfl)
  | advance => exact .inl (relays_same rfl)
  | ret id c r =>
    have hrec := (hP.receive id (.ret c r)).linked
    have hserve := relays_serves hrec (Ports.onReturn_trace hrec id c r)
    exact .inl (relays_after (w := .received id (.ret c r)) (R.ports.receive id (.ret c r)) rfl
      not_false rfl hserve)
  | chunk id c chunk =>
    exact .inl (relays_quiet (Ports.onChunk_trace _ _ _) (w := .received id _) not_false)
  | deadline d _ hd => exact .inl (relays_serves hP.linked (Ports.onDeadline_trace hP hd))
  | fail _ id reason => exact .inl (relays_same (Ports.failInflight_trace id reason P))
  | accept _ target msg onChunk => exact .inr ⟨target, msg, onChunk, rfl⟩

lemma Move.trace {P Q : Ports} (hm : Move R e P Q) {w : Wire} (hw : w ∈ P.trace) : w ∈ Q.trace := by
  rcases hm.grows with hg | ⟨target, msg, onChunk, rfl⟩
  · exact hg.trace w hw
  · rcases Ports.accept_trace (P := P) (R.routes.maxInflight target) target msg onChunk
      (R.routes.priorityOf msg.op) with hsame | ⟨d, _, hpost⟩
    · rw [hsame]
      exact hw
    · rw [hpost]
      exact List.mem_cons_of_mem _ hw

lemma Move.sound {P Q : Ports} (hm : Move R e P Q) (hP : P.Sound) : Q.Sound := by
  cases hm with
  | post _ id m _ => exact hP.post id m
  | receive _ id m _ => exact hP.receive id m
  | enrolled => exact hP.of_tables rfl rfl rfl rfl rfl rfl
  | ret id c r => exact (hP.receive id (.ret c r)).onReturn id c r
  | chunk id c chunk => exact (hP.receive id (.chunk c chunk)).onChunk c chunk
  | deadline d _ hd => exact hP.onDeadline hd
  | fail _ id reason => exact hP.failInflight id reason
  | accept _ target msg onChunk _ hfree hkey => exact hP.accept _ target msg onChunk _ hfree hkey
  | advance ms => exact hP.advance ms

/-- Every `deliver` on the wire is an accepted delivery. -/
def Sent (P : Ports) : Prop :=
  ∀ id msg, .posted id (.deliver msg) ∈ P.trace → ∃ d ∈ P.accepted, d.targetId = id ∧ d.msg = msg

lemma Move.sent {P Q : Ports} (hm : Move R e P Q) (hP : P.Sound) (hS : Sent P) : Sent Q := by
  intro id msg hpost
  rcases hm.relays hP with ⟨ws, htrace, hws⟩ | ⟨target, m, onChunk, rfl⟩
  · rw [htrace] at hpost
    rcases List.mem_append.mp hpost with hnew | hold
    · obtain ⟨d, hd, heq⟩ := hws _ hnew trivial
      cases heq
      exact ⟨d, hm.accepted hd, rfl, rfl⟩
    · obtain ⟨d, hd, h⟩ := hS id msg hold
      exact ⟨d, hm.accepted hd, h⟩
  · rw [Ports.accepted_accept]
    have hold : .posted id (.deliver msg) ∈ P.trace →
        ∃ d ∈ P.accepted ++ [P.newDelivery target m onChunk (R.routes.priorityOf m.op)],
          d.targetId = id ∧ d.msg = msg := by
      intro hmem
      obtain ⟨d, hd, h⟩ := hS id msg hmem
      exact ⟨d, List.mem_append_left _ hd, h⟩
    rcases Ports.accept_trace (P := P) (R.routes.maxInflight target) target m onChunk
      (R.routes.priorityOf m.op) with hsame | ⟨d, hd, htrace⟩
    · exact hold (hsame ▸ hpost)
    · rw [htrace] at hpost
      rcases List.mem_cons.mp hpost with heq | hmem
      · cases heq
        exact ⟨d, List.mem_append_right _ hd, rfl, rfl⟩
      · exact hold hmem

lemma sent_reachable {ok : PortRouter → Event → Prop} (h : (system manifests).Reachable ok R) :
    Sent R.ports := by
  apply h.invariant
  · rintro R ⟨journaling, kernel, onDemandSpawn, rfl⟩
    intro id msg hpost
    cases hpost
  · intro R e R' hR hS _ hs
    have hW := Wired.reachable hR
    have hboth := (hW.moves hs).invariant (I := fun P => P.Sound ∧ Sent P)
      (fun P Q hm hP => ⟨hm.sound hP.1, hm.sent hP.1 hP.2⟩) ⟨hW.sound, hS⟩
    exact hboth.2

end PortRouter

end VivimOmega.Host

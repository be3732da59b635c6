import VivimOmega.Host.Tokens

/-! Exact grants: which capabilities a compartment must hold for its tokens to be accepted. -/

namespace VivimOmega.Host

open Library Contracts

namespace Authority

variable {A : Authority} {mint : ℕ → String} {op cap key token : String}
  {tokens : OrderedMap String String}

/-- The capability that guards an op. -/
def guarding (op : String) : String := if isHostOp op then hostCapFor op else "port:" ++ op

lemma hostOp_cap (h : isHostOp op = true) : (op, hostCapFor op) ∈ hostOpToCap := by
  have hall : ∀ op ∈ HostOps.all, (op, hostCapFor op) ∈ hostOpToCap := by decide +kernel
  exact hall op (of_decide_eq_true h)

lemma hostCap_mem (h : (op, cap) ∈ hostOpToCap) : isHostOp op = true ∧ cap = hostCapFor op := by
  have hall : ∀ e ∈ hostOpToCap, isHostOp e.1 = true ∧ e.2 = hostCapFor e.1 := by decide +kernel
  exact hall (op, cap) h

lemma effectiveCap_alias (h : (op, cap) ∈ hostOpToCap) : effectiveCap ("port:" ++ op) = some cap := by
  have hall : ∀ e ∈ hostOpToCap, effectiveCap ("port:" ++ e.1) = some e.2 := by decide +kernel
  exact hall (op, cap) h

lemma effectiveCap_guard (h : (op, cap) ∈ hostOpToCap) : effectiveCap cap = some cap := by
  have hall : ∀ e ∈ hostOpToCap, effectiveCap e.2 = some e.2 := by decide +kernel
  exact hall (op, cap) h

lemma lookup_mem (h : hostCapOf? op = some cap) : (op, cap) ∈ hostOpToCap := by
  obtain ⟨l₁, l₂, hsplit, _⟩ := List.lookup_eq_some_iff.mp h
  rw [hsplit]
  simp

/-- The rewrite keeps a key, or turns the key of a host op into the capability of that op. -/
lemma effectiveCap_cases (h : effectiveCap key = some cap) :
    key = cap ∨ ∃ op, key = "port:" ++ op ∧ (op, cap) ∈ hostOpToCap := by
  unfold effectiveCap at h
  split_ifs at h with hport
  · dsimp only at h
    split_ifs at h
    cases hc : hostCapOf? (Text.sliceFrom key "port:".length) with
    | none =>
      rw [hc] at h
      exact .inl (Option.some.inj h)
    | some c =>
      rw [hc] at h
      obtain rfl : c = cap := Option.some.inj h
      exact .inr ⟨_, Text.eq_append_of_startsWith hport, lookup_mem hc⟩
  · exact .inl (Option.some.inj h)

/-- The keys under which the token of a capability is found. -/
def Names (cap key : String) : Prop :=
  key = cap ∨ ∃ op, key = "port:" ++ op ∧ (op, cap) ∈ hostOpToCap

lemma Names.effectiveCap_eq (h : Names cap key) : effectiveCap key = effectiveCap cap := by
  rcases h with rfl | ⟨op, rfl, hop⟩
  · rfl
  · rw [effectiveCap_alias hop, effectiveCap_guard hop]

/-! ### Minting -/

lemma aliasHostOps_get (h : (aliasHostOps cap token tokens).get? key = some t) :
    tokens.get? key = some t ∨ (t = token ∧ Names cap key) := by
  have hloop : ∀ (l : List (String × String)) (m : OrderedMap String String),
      (∀ e ∈ l, e ∈ hostOpToCap) →
      (l.foldl (fun m e => if e.2 = cap then m.set ("port:" ++ e.1) token else m) m).get? key =
        some t → m.get? key = some t ∨ (t = token ∧ Names cap key) := by
    intro l
    induction l with
    | nil => exact fun m _ hm => .inl hm
    | cons e rest ih =>
      intro m hl hm
      rcases ih _ (fun e' he' => hl e' (List.mem_cons_of_mem _ he')) hm with hget | hnew
      · dsimp only at hget
        split_ifs at hget with hcap
        · rw [OrderedMap.get?_set] at hget
          split_ifs at hget with hkey
          · refine .inr ⟨(Option.some.inj hget).symm, .inr ⟨e.1, hkey, ?_⟩⟩
            exact hcap ▸ hl e List.mem_cons_self
          · exact .inl hget
        · exact .inl hget
      · exact .inr hnew
  exact hloop hostOpToCap tokens (fun _ he => he) h

lemma aliasHostOps_has (h : tokens.has key = true) :
    (aliasHostOps cap token tokens).has key = true := by
  have hloop : ∀ (l : List (String × String)) (m : OrderedMap String String), m.has key = true →
      (l.foldl (fun m e => if e.2 = cap then m.set ("port:" ++ e.1) token else m) m).has key =
        true := by
    intro l
    induction l with
    | nil => exact fun m hm => hm
    | cons e rest ih =>
      intro m hm
      apply ih
      dsimp only
      split_ifs
      · rw [OrderedMap.has_set, hm, Bool.or_true]
      · exact hm
  exact hloop hostOpToCap tokens h

/-- A minted token is the value of one call of `mint`, made for one capability of the entry. -/
lemma mint_get {caps : List String} {acc : OrderedMap String String × ℕ}
    (h : (caps.foldl (mintCap mint) acc).1.get? key = some t) :
    acc.1.get? key = some t ∨
      ∃ i cap, (cap, i) ∈ caps.zipIdx acc.2 ∧ t = mint i ∧ Names cap key := by
  induction caps generalizing acc with
  | nil => exact .inl h
  | cons c rest ih =>
    rcases ih h with hget | ⟨i, cap, hmem, ht, hkey⟩
    · rcases aliasHostOps_get hget with hget | ⟨ht, hkey⟩
      · split_ifs at hget
        · exact .inl hget
        · rw [OrderedMap.get?_set] at hget
          split_ifs at hget with hkey
          · exact .inr ⟨acc.2, c, by simp, (Option.some.inj hget).symm, .inl hkey⟩
          · exact .inl hget
      · exact .inr ⟨acc.2, c, by simp, ht, hkey⟩
    · exact .inr ⟨i, cap, List.mem_cons_of_mem _ hmem, ht, hkey⟩

lemma mint_has {caps : List String} {acc : OrderedMap String String × ℕ}
    (h : acc.1.has cap = true ∨ (cap ∈ caps ∧ cap ≠ "__proto__")) :
    (caps.foldl (mintCap mint) acc).1.has cap = true := by
  induction caps generalizing acc with
  | nil => simpa using h
  | cons c rest ih =>
    apply ih
    rcases h with hacc | ⟨hmem, hproto⟩
    · left
      apply aliasHostOps_has
      split_ifs
      · exact hacc
      · rw [OrderedMap.has_set, hacc, Bool.or_true]
    · rcases List.mem_cons.mp hmem with rfl | hmem
      · left
        apply aliasHostOps_has
        rw [if_neg hproto, OrderedMap.has_set, decide_eq_true rfl, Bool.true_or]
      · exact .inr ⟨hmem, hproto⟩

/-- Boot mints the tokens of one entry after the other. -/
def minted (mint : ℕ → String) :
    ℕ → List CompositionEntry → List (CompositionEntry × OrderedMap String String)
  | _, [] => []
  | n, entry :: rest =>
    (entry, (mintTokensFor mint n entry).1) :: minted mint (mintTokensFor mint n entry).2 rest

lemma minted_entry {n : ℕ} {es : List CompositionEntry} {entry : CompositionEntry}
    (h : (entry, tokens) ∈ minted mint n es) :
    entry ∈ es ∧ ∃ m, tokens = (mintTokensFor mint m entry).1 := by
  induction es generalizing n with
  | nil => cases h
  | cons e rest ih =>
    rcases List.mem_cons.mp h with heq | h
    · cases heq
      exact ⟨List.mem_cons_self, n, rfl⟩
    · obtain ⟨hmem, hm⟩ := ih h
      exact ⟨List.mem_cons_of_mem _ hmem, hm⟩

lemma exists_minted {es : List CompositionEntry} {entry : CompositionEntry} (h : entry ∈ es)
    (n : ℕ) : ∃ tokens, (entry, tokens) ∈ minted mint n es := by
  induction es generalizing n with
  | nil => cases h
  | cons e rest ih =>
    rcases List.mem_cons.mp h with rfl | h
    · exact ⟨_, List.mem_cons_self⟩
    · obtain ⟨tokens, hmem⟩ := ih h (mintTokensFor mint n e).2
      exact ⟨tokens, List.mem_cons_of_mem _ hmem⟩

/-- Keys that share a token share its effective capability. -/
lemma mint_agrees {n : ℕ} {entry : CompositionEntry} (hmint : Function.Injective mint)
    {k k' : String} (h : (mintTokensFor mint n entry).1.get? k = some t)
    (h' : (mintTokensFor mint n entry).1.get? k' = some t) : effectiveCap k = effectiveCap k' := by
  rcases mint_get h with hno | ⟨i, cap, hmem, hi, hk⟩
  · cases hno
  · rcases mint_get h' with hno | ⟨i', cap', hmem', hi', hk'⟩
    · cases hno
    · obtain rfl : i = i' := hmint (hi.symm.trans hi')
      obtain rfl : cap = cap' := by
        have hget := (List.mk_mem_zipIdx_iff_le_and_getElem?_sub.mp hmem).2
        have hget' := (List.mk_mem_zipIdx_iff_le_and_getElem?_sub.mp hmem').2
        exact Option.some.inj (hget.symm.trans hget')
      rw [hk.effectiveCap_eq, hk'.effectiveCap_eq]

/-- What a record becomes does not depend on the order of the keys. -/
lemma installAll_perm {n : ℕ} {entry : CompositionEntry} {entries : List (String × String)}
    (hmint : Function.Injective mint)
    (hperm : entries.Perm (mintTokensFor mint n entry).1.entries) (id : String) :
    (A.installAll id entries).tokens.get? t =
      (A.installTokens id (mintTokensFor mint n entry).1).tokens.get? t := by
  rw [installTokens, installAll_get, installAll_get]
  split_ifs
  · rfl
  · cases hf : entries.find? (fun e => e.2 = t) with
    | none =>
      have hnone : (mintTokensFor mint n entry).1.entries.find? (fun e => e.2 = t) = none := by
        apply List.find?_eq_none.mpr
        intro e he
        exact List.find?_eq_none.mp hf e (hperm.mem_iff.mpr he)
      rw [hnone]
    | some e =>
      obtain ⟨k, v⟩ := e
      have he := hperm.mem_iff.mp (List.mem_of_find?_eq_some hf)
      obtain rfl : v = t := by simpa using List.find?_some hf
      cases hf' : (mintTokensFor mint n entry).1.entries.find? (fun e => e.2 = v) with
      | none => exact absurd (by simp) (List.find?_eq_none.mp hf' (k, v) he)
      | some e' =>
        obtain ⟨k', v'⟩ := e'
        have he' := List.mem_of_find?_eq_some hf'
        obtain rfl : v' = v := by simpa using List.find?_some hf'
        have hcap := mint_agrees hmint (OrderedMap.get?_of_mem he) (OrderedMap.get?_of_mem he')
        rw [Option.map_some, Option.map_some, recordFor, recordFor, hcap]

end Authority

namespace PortRouter

open Authority

variable {manifests : OrderedMap String PluginManifest} {R R' S S' : PortRouter} {e : Event}
  {issued : List (CompositionEntry × OrderedMap String String)} {mint : ℕ → String}
  {es : List CompositionEntry}

/-- Entries are registered with the tokens issued for them. -/
def RegistersIssued (issued : List (CompositionEntry × OrderedMap String String))
    (_ : PortRouter) : Event → Prop
  | .register entry tokens => (entry, tokens) ∈ issued
  | .registerDormant entry tokens => (entry, tokens) ∈ issued
  | _ => True

/-- Dormant entries, spawn attempts and token records all go back to what was issued. -/
structure Backed (issued : List (CompositionEntry × OrderedMap String String)) (R : PortRouter) :
    Prop where
  dormant : ∀ id d, R.spawner.dormant.get? id = some d → (d.entry, d.tokens) ∈ issued
  attempts : ∀ n a, R.spawner.attempts.get? n = some a →
    (a.source.entry, a.source.tokens) ∈ issued
  records : ∀ t rec, R.authority.tokens.get? t = some rec → ∃ entry tokens key,
    (entry, tokens) ∈ issued ∧ entry.id = rec.pluginId ∧ tokens.get? key = some t ∧
      rec.cap = effectiveCap key

namespace Backed

lemma registers (h : R.Backed issued) (hok : RegistersIssued issued R e) {entry : CompositionEntry}
    {tokens : OrderedMap String String} (hr : Registers R e entry tokens) :
    (entry, tokens) ∈ issued := by
  cases hr with
  | eager entry tokens he =>
    subst he
    exact hok
  | dormant entry tokens he =>
    subst he
    exact hok
  | lazily n a ha => exact h.attempts n a ha

lemma turn (hR : R.Backed issued) (hok : RegistersIssued issued R e) (h : S.Backed issued)
    (ht : Turn manifests R e S S') : S'.Backed issued := by
  refine ⟨fun id d hget => ?_, fun n a hget => ?_, fun t rec hget => ?_⟩
  · rcases ht.dormant_source hget with hold | ⟨m, he, _, _, _⟩
    · exact h.dormant id d hold
    · subst he
      exact hok
  · rcases ht.attempt_source hget with ⟨a', hold, _, hsource⟩ | hdormant
    · rw [← hsource]
      exact h.attempts n a' hold
    · exact h.dormant a.id a.source hdormant
  · rcases ht.registry with ⟨_, _, hsame | ⟨pluginId, hrevoke⟩⟩ | ⟨entry, m, tokens, henrol⟩
    · rw [hsame] at hget
      exact h.records t rec hget
    · rw [hrevoke, revoke_get] at hget
      obtain ⟨old, hold, rfl⟩ := Option.map_eq_some_iff.mp hget
      have hkept := h.records t old hold
      split_ifs <;> exact hkept
    · rw [henrol.authority, installTokens, installAll_get] at hget
      split_ifs at hget
      · exact h.records t rec hget
      · obtain ⟨e', hfind, rfl⟩ := Option.map_eq_some_iff.mp hget
        have hmem := List.mem_of_find?_eq_some hfind
        have het : e'.2 = t := by simpa using List.find?_some hfind
        exact ⟨entry, tokens, e'.1, hR.registers hok henrol.source, rfl,
          OrderedMap.get?_of_mem (het ▸ hmem), rfl⟩

lemma reachable (h : (system manifests).Reachable (RegistersIssued issued) R) :
    R.Backed issued := by
  apply h.invariant
  · rintro R ⟨journaling, kernel, onDemandSpawn, rfl⟩
    refine ⟨?_, ?_, ?_⟩ <;> simp [PortRouter.fresh]
  · intro R e R' hR hB hok hs
    exact ((Wired.reachable hR).turns hs).invariant (fun _ _ ht hT => turn hB hok hT ht) hB

end Backed

/-- A call is accepted only if the sender was granted the capability that guards the op. -/
def ExactGrants (manifests : OrderedMap String PluginManifest) (mint : ℕ → String)
    (es : List CompositionEntry) : Prop :=
  ∀ R, (system manifests).Reachable (RegistersIssued (minted mint 0 es)) R →
    ∀ p t op, R.authority.checkToken p t op = none →
      ∃ entry ∈ es, entry.id = p ∧ guarding op ∈ entry.grant.capabilities

/-- Registering an entry with its keys in another order makes no difference to any token check. -/
def OrderFree (mint : ℕ → String) (es : List CompositionEntry) : Prop :=
  ∀ entry tokens, (entry, tokens) ∈ minted mint 0 es →
    ∀ (A : Authority) entries, List.Perm entries tokens.entries → ∀ p t op,
      (A.installAll entry.id entries).checkToken p t op =
        (A.installTokens entry.id tokens).checkToken p t op

/-- Whoever is granted a host op by name also holds the capability that guards it. -/
def GuardsHeld (es : List CompositionEntry) : Prop :=
  ∀ entry ∈ es, ∀ op, isHostOp op = true → "port:" ++ op ∈ entry.grant.capabilities →
    ∃ holder ∈ es, holder.id = entry.id ∧ hostCapFor op ∈ holder.grant.capabilities

lemma orderFree (hmint : Function.Injective mint) (es : List CompositionEntry) :
    OrderFree mint es := by
  intro entry tokens hmem A entries hperm p t op
  obtain ⟨_, n, rfl⟩ := minted_entry hmem
  apply checkToken_congr (installAll_perm hmint hperm entry.id)
  rw [installTokens, installAll_generation, installAll_generation]

lemma accepted_record {A : Authority} {p t op : String} (h : A.checkToken p t op = none) :
    ∃ rec, A.tokens.get? t = some rec ∧ rec.pluginId = p ∧ rec.cap = some (guarding op) := by
  unfold checkToken at h
  cases hget : A.tokens.get? t with
  | none => simp [hget] at h
  | some rec =>
    refine ⟨rec, rfl, ?_⟩
    simp only [hget] at h
    split_ifs at h with howner hrevoked hgen hhost hcap hcap'
    · exact ⟨not_not.mp howner, by rw [guarding, if_pos hhost, not_not.mp hcap]⟩
    · exact ⟨not_not.mp howner, by rw [guarding, if_neg hhost, not_not.mp hcap']⟩

lemma exactGrants_of_guardsHeld (h : GuardsHeld es) : ExactGrants manifests mint es := by
  intro R hR p t op hnone
  obtain ⟨rec, hget, rfl, hcap⟩ := accepted_record hnone
  obtain ⟨entry, tokens, key, hmem, hid, hkey, hrec⟩ := (Backed.reachable hR).records t rec hget
  obtain ⟨hentry, n, rfl⟩ := minted_entry hmem
  rcases mint_get hkey with hno | ⟨i, cap, hzip, _, hnames⟩
  · cases hno
  have hgranted : cap ∈ entry.grant.capabilities := List.fst_mem_of_mem_zipIdx hzip
  have heffective : effectiveCap cap = some (guarding op) := by
    rw [← hnames.effectiveCap_eq, ← hrec, hcap]
  rcases effectiveCap_cases heffective with rfl | ⟨op', rfl, hop'⟩
  · exact ⟨entry, hentry, hid, hgranted⟩
  · obtain ⟨hhost, hguard⟩ := hostCap_mem hop'
    obtain ⟨holder, hholder, hsame, hheld⟩ := h entry hentry op' hhost hgranted
    exact ⟨holder, hholder, hsame.trans hid, hguard ▸ hheld⟩

/-- The token under a key authorises what the key stands for, once it is installed. -/
lemma accepted_of_installed {n : ℕ} {entry : CompositionEntry} {key t op : String}
    {A : Authority} (hmint : Function.Injective mint) (hnew : A.tokens.has t = false)
    (hkey : (mintTokensFor mint n entry).1.get? key = some t)
    (hcap : effectiveCap key = some (guarding op)) :
    (A.installTokens entry.id (mintTokensFor mint n entry).1).checkToken entry.id t op = none := by
  set tokens := (mintTokensFor mint n entry).1
  have hfound : ∃ k, tokens.entries.find? (fun e => e.2 = t) = some (k, t) ∧
      effectiveCap k = some (guarding op) := by
    cases hf : tokens.entries.find? (fun e => e.2 = t) with
    | none => exact absurd (by simp) (List.find?_eq_none.mp hf (key, t) (OrderedMap.mem_of_get? hkey))
    | some e =>
      obtain ⟨k, v⟩ := e
      have hmem := List.mem_of_find?_eq_some hf
      obtain rfl : v = t := by simpa using List.find?_some hf
      refine ⟨k, rfl, ?_⟩
      rw [mint_agrees hmint (OrderedMap.get?_of_mem hmem) hkey, hcap]
  obtain ⟨k, hfind, hk⟩ := hfound
  have hget : (A.installTokens entry.id tokens).tokens.get? t = some (A.recordFor entry.id k t) := by
    rw [installTokens, installAll_get, hnew, hfind]
    rfl
  have hgen : (A.installTokens entry.id tokens).generation = A.generation :=
    installAll_generation _ _
  unfold checkToken
  rw [hget]
  simp only [recordFor, hk, hgen, guarding]
  by_cases hhost : isHostOp op = true <;> simp [hhost]

lemma reachable_dormant {entry : CompositionEntry} {m : PluginManifest}
    {tokens : OrderedMap String String} (hmem : (entry, tokens) ∈ issued)
    (hm : manifests.get? entry.id = some m) :
    (system manifests).Reachable (RegistersIssued issued)
      ((fresh false none true).registerDormant entry m tokens) := by
  have hstart : (system manifests).Reachable (RegistersIssued issued) (fresh false none true) :=
    .start ⟨false, none, true, rfl⟩
  have hstep : step manifests (fresh false none true) (.registerDormant entry tokens) =
      some ((fresh false none true).registerDormant entry m tokens) := by
    rw [step, hm, Option.map_some]
  have hok : RegistersIssued issued (fresh false none true) (.registerDormant entry tokens) := hmem
  exact hstart.next hok hstep

lemma guardsHeld_of_exactGrants (hmint : Function.Injective mint)
    (hknown : ∀ entry ∈ es, manifests.has entry.id = true) (h : ExactGrants manifests mint es) :
    GuardsHeld es := by
  intro entry hentry op hhost hport
  have hissued : ∃ tokens, (entry, tokens) ∈ minted mint 0 es := exists_minted hentry 0
  obtain ⟨tokens, hmem⟩ := hissued
  obtain ⟨m, hm⟩ := (OrderedMap.has_iff _ _).mp (hknown entry hentry)
  obtain ⟨_, n, rfl⟩ := minted_entry hmem
  obtain ⟨hop, hguard⟩ := hostCap_mem (hostOp_cap hhost)
  have hproto : "port:" ++ op ≠ "__proto__" := by
    have hall : ∀ op ∈ HostOps.all, "port:" ++ op ≠ "__proto__" := by decide +kernel
    exact hall op (of_decide_eq_true hhost)
  have hhas : (mintTokensFor mint n entry).1.has ("port:" ++ op) = true :=
    mint_has (.inr ⟨hport, hproto⟩)
  obtain ⟨t, ht⟩ := (OrderedMap.has_iff _ _).mp hhas
  have hcap : effectiveCap ("port:" ++ op) = some (guarding op) := by
    rw [effectiveCap_alias (hostOp_cap hhost), guarding, if_pos hhost]
  have haccept : ((fresh false none true).registerDormant entry m
      (mintTokensFor mint n entry).1).authority.checkToken entry.id t op = none :=
    accepted_of_installed hmint rfl ht hcap
  obtain ⟨holder, hholder, hid, hheld⟩ := h _ (reachable_dormant hmem hm) entry.id t op haccept
  rw [guarding, if_pos hhost] at hheld
  exact ⟨holder, hholder, hid, hheld⟩

theorem exact_grants_iff (manifests : OrderedMap String PluginManifest) (mint : ℕ → String)
    (es : List CompositionEntry) (hmint : Function.Injective mint)
    (hknown : ∀ entry ∈ es, manifests.has entry.id = true) :
    (ExactGrants manifests mint es ∧ OrderFree mint es) ↔ GuardsHeld es :=
  ⟨fun h => guardsHeld_of_exactGrants hmint hknown h.1,
    fun h => ⟨exactGrants_of_guardsHeld h, orderFree hmint es⟩⟩

/-- One token string for each call of `mintToken`. -/
def tokenOf (n : ℕ) : String := "t_" ++ n.repr

lemma tokenOf_injective : Function.Injective tokenOf :=
  (Text.append_right_injective "t_").comp Text.repr_injective

theorem exact_grants_iff_notes :
    ExactGrants (Sample.manifests none none) tokenOf [Sample.law, Sample.notes] ∧
      OrderFree tokenOf [Sample.law, Sample.notes] := by
  apply (exact_grants_iff (Sample.manifests none none) tokenOf [Sample.law, Sample.notes]
    tokenOf_injective (by decide +kernel)).mpr
  have hall : ∀ entry ∈ [Sample.law, Sample.notes], ∀ op ∈ HostOps.all,
      "port:" ++ op ∉ entry.grant.capabilities := by decide +kernel
  intro entry hentry op hhost hport
  exact absurd hport (hall entry hentry op (of_decide_eq_true hhost))

/-- A compartment that may read the statistics, and so terminate any compartment. -/
def statsReader : CompositionEntry :=
  Sample.entry "notes" [] ["port:host.compartment.stats@1"] 1

theorem exact_grants_iff_statsReader :
    ¬ ∀ (manifests : OrderedMap String PluginManifest) (mint : ℕ → String)
      (es : List CompositionEntry), Function.Injective mint →
      (∀ entry ∈ es, manifests.has entry.id = true) →
      ExactGrants manifests mint es ∧ OrderFree mint es := by
  intro hclaim
  have hknown : ∀ entry ∈ [Sample.law, statsReader], (Sample.manifests none none).has entry.id = true := by
    decide +kernel
  have hexact := (hclaim _ tokenOf [Sample.law, statsReader] tokenOf_injective hknown).1
  let tokens := (mintTokensFor tokenOf 0 statsReader).1
  let R := fresh false none true
  let m := Sample.manifest "notes"
    [Sample.contribution "notes.put" (some .mutation), Sample.contribution "notes.get" (some .read)]
    none
  have hreach : (system (Sample.manifests none none)).Reachable
      (RegistersIssued (minted tokenOf 0 [Sample.law, statsReader]))
      (R.registerDormant statsReader m tokens) :=
    reachable_dormant (List.mem_cons_of_mem _ List.mem_cons_self) rfl
  have haccept : (R.registerDormant statsReader m tokens).authority.checkToken "notes" "t_0"
      HostOps.compartmentTerminate = none := by decide +kernel
  obtain ⟨entry, hentry, _, hheld⟩ := hexact _ hreach "notes" "t_0" _ haccept
  have hnone : ∀ entry ∈ [Sample.law, statsReader],
      guarding HostOps.compartmentTerminate ∉ entry.grant.capabilities := by decide +kernel
  exact hnone entry hentry hheld

end PortRouter

end VivimOmega.Host

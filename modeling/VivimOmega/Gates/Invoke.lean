import VivimOmega.Gates.Watch

/-! Invocation grants: policy, grant, expiry and scope, before anything else runs. -/

namespace VivimOmega.Gates

open Library Library.Json

section Grants

inductive InvokePolicy
  | principalGranted | isPublic | delegatedOnly | none
  deriving DecidableEq

structure InvokeGrant where
  grantId : JsString
  principalRef : JsString
  realizationId : JsString
  scope : JsString
  expiresAt : Option Number
  namedBy : JsString

structure Invocation where
  principalRef : JsString
  enrolled : Bool
  realizationId : JsString
  policy : InvokePolicy
  intentNs : JsString
  nowMs : Number

def globalScope : JsString := ofText "global"

def publicGrant : JsString := ofText "public"

def unauthorized (principalRef realizationId : JsString) : Refusal :=
  ⟨"INVOKE_UNAUTHORIZED", "Principal " ++ toText principalRef ++ " is not granted permission to invoke realization " ++
    toText realizationId ++ ". Request refused."⟩

def grantInvoke (principalRef realizationId : JsString) (scope : Option JsString) (expiresAt : Option Number)
    (namedBy : JsString) (signed : Bool) : Except Refusal InvokeGrant :=
  if !signed then throw (unauthorized principalRef realizationId)
  else
    let scope := scope.getD globalScope
    let grantId := hash53 (ofText "invoke|" ++ principalRef ++ bar :: realizationId ++ bar :: scope)
    return ⟨grantId, principalRef, realizationId, scope, expiresAt, namedBy⟩

/-- The grant is one for the principal and the realization. -/
def ForPair (i : Invocation) (g : InvokeGrant) : Prop :=
  g.principalRef = i.principalRef ∧ g.realizationId = i.realizationId

instance instDecidableForPair (i : Invocation) (g : InvokeGrant) : Decidable (ForPair i g) :=
  inferInstanceAs (Decidable (_ ∧ _))

def expired (g : InvokeGrant) (nowMs : Number) : Bool := g.expiresAt.any fun expiresAt => expiresAt.lt nowMs

def checkInvocation (i : Invocation) (grants : List InvokeGrant) : Except Refusal JsString :=
  match i.policy with
  | .none => throw ⟨"INVOKE_POLICY_NONE", "Realization " ++ toText i.realizationId ++
      " has an invocation policy of 'none'. It cannot be invoked directly. Request refused."⟩
  | .isPublic => if !i.enrolled then throw (unauthorized i.principalRef i.realizationId) else return publicGrant
  | _ =>
    match grants.find? fun g => ForPair i g with
    | none => throw (unauthorized i.principalRef i.realizationId)
    | some grant =>
      if expired grant i.nowMs then throw (unauthorized i.principalRef i.realizationId)
      else if grant.scope ≠ globalScope ∧ grant.scope ≠ i.intentNs then
        throw ⟨"INVOKE_SCOPE_VIOLATION", "Principal " ++ toText i.principalRef ++ " is granted to invoke " ++
          toText i.realizationId ++ ", but not for namespace " ++ toText i.intentNs ++ ". Request refused."⟩
      else return grant.grantId

end Grants

section Sets

/-- The grant allows the invocation by itself. -/
structure Valid (i : Invocation) (g : InvokeGrant) : Prop where
  pair : ForPair i g
  unexpired : expired g i.nowMs = false
  inScope : g.scope = globalScope ∨ g.scope = i.intentNs

def allows (i : Invocation) (grants : List InvokeGrant) : Prop := ∃ id, checkInvocation i grants = .ok id

/-- The grants count as a set: some valid one allows, in any order, and another one does no harm. -/
structure GrantSet (i : Invocation) (grants : List InvokeGrant) : Prop where
  exact : allows i grants ↔ ∃ g ∈ grants, Valid i g
  named : ∀ id, checkInvocation i grants = .ok id → ∃ g ∈ grants, Valid i g ∧ g.grantId = id
  unordered : ∀ grants', grants'.Perm grants → (allows i grants' ↔ allows i grants)
  monotone : ∀ g, allows i grants → allows i (grants ++ [g])

variable {i : Invocation} {grants grants' : List InvokeGrant} {g : InvokeGrant}

/-- The first grant for the pair decides. -/
lemma checkInvocation_ok (hpolicy : i.policy = .principalGranted ∨ i.policy = .delegatedOnly) {id : JsString} :
    checkInvocation i grants = .ok id ↔
      ∃ g, grants.find? (fun g => ForPair i g) = some g ∧ Valid i g ∧ g.grantId = id := by
  have hcheck : checkInvocation i grants = match grants.find? fun g => ForPair i g with
      | none => throw (unauthorized i.principalRef i.realizationId)
      | some grant =>
        if expired grant i.nowMs then throw (unauthorized i.principalRef i.realizationId)
        else if grant.scope ≠ globalScope ∧ grant.scope ≠ i.intentNs then
          throw ⟨"INVOKE_SCOPE_VIOLATION", "Principal " ++ toText i.principalRef ++ " is granted to invoke " ++
            toText i.realizationId ++ ", but not for namespace " ++ toText i.intentNs ++ ". Request refused."⟩
        else return grant.grantId := by
    unfold checkInvocation
    obtain hp | hp := hpolicy <;> rw [hp]
  rw [hcheck]
  cases hfind : grants.find? fun g => ForPair i g with
  | none =>
    apply iff_of_false
    · intro h
      cases h
    · rintro ⟨g, hg, -⟩
      cases hg
  | some g =>
    have hpair : ForPair i g := by simpa using List.find?_some hfind
    dsimp only
    split_ifs with hexpired hscope
    · apply iff_of_false
      · intro h
        cases h
      · rintro ⟨_, hfirst, hvalid, -⟩
        cases hfirst
        rw [hvalid.unexpired] at hexpired
        cases hexpired
    · apply iff_of_false
      · intro h
        cases h
      · rintro ⟨_, hfirst, hvalid, -⟩
        cases hfirst
        exact hvalid.inScope.elim hscope.1 hscope.2
    · have hvalid : Valid i g := ⟨hpair, Bool.not_eq_true _ ▸ hexpired, by tauto⟩
      constructor
      · intro h
        cases h
        exact ⟨g, rfl, hvalid, rfl⟩
      · rintro ⟨_, hfirst, -, rfl⟩
        cases hfirst
        rfl

lemma allows_iff (hpolicy : i.policy = .principalGranted ∨ i.policy = .delegatedOnly) :
    allows i grants ↔ ∃ g, grants.find? (fun g => ForPair i g) = some g ∧ Valid i g := by
  constructor
  · rintro ⟨id, h⟩
    obtain ⟨g, hfind, hvalid, -⟩ := (checkInvocation_ok hpolicy).mp h
    exact ⟨g, hfind, hvalid⟩
  · rintro ⟨g, hfind, hvalid⟩
    exact ⟨g.grantId, (checkInvocation_ok hpolicy).mpr ⟨g, hfind, hvalid, rfl⟩⟩

/-- Where the grants for the pair are all valid or all not, the first of them speaks for the others. -/
lemma allows_uniform (hpolicy : i.policy = .principalGranted ∨ i.policy = .delegatedOnly)
    (h : (∀ g ∈ grants, ForPair i g → Valid i g) ∨ ∀ g ∈ grants, ¬ Valid i g) :
    allows i grants ↔ ∃ g ∈ grants, Valid i g := by
  rw [allows_iff hpolicy]
  constructor
  · rintro ⟨g, hfind, hvalid⟩
    exact ⟨g, List.mem_of_find?_eq_some hfind, hvalid⟩
  · rintro ⟨v, hv, hvalid⟩
    obtain hall | hnone := h
    · have hsome : (grants.find? fun g => ForPair i g).isSome = true :=
        List.find?_isSome.mpr ⟨v, hv, decide_eq_true hvalid.pair⟩
      obtain ⟨g, hfind⟩ := Option.isSome_iff_exists.mp hsome
      exact ⟨g, hfind, hall g (List.mem_of_find?_eq_some hfind) (by simpa using List.find?_some hfind)⟩
    · exact absurd hvalid (hnone v hv)

/-- A grant that is moved to the front decides, if it is one for the pair. -/
lemma allows_front (hpolicy : i.policy = .principalGranted ∨ i.policy = .delegatedOnly) (hg : g ∈ grants)
    (hpair : ForPair i g) : ∃ grants', grants'.Perm grants ∧ (allows i grants' ↔ Valid i g) := by
  obtain ⟨front, back, rfl⟩ := List.append_of_mem hg
  refine ⟨g :: (front ++ back), List.perm_middle.symm, ?_⟩
  rw [allows_iff hpolicy]
  simp [hpair]

/-- The grants count as a set just where all those for the pair are valid, or none is. -/
theorem grantSet_iff (i : Invocation) (hpolicy : i.policy = .principalGranted ∨ i.policy = .delegatedOnly)
    (grants : List InvokeGrant) :
    GrantSet i grants ↔ (∀ g ∈ grants, ForPair i g → Valid i g) ∨ ∀ g ∈ grants, ¬ Valid i g := by
  constructor
  · intro h
    by_contra hmixed
    push Not at hmixed
    obtain ⟨⟨g, hg, hpair, hinvalid⟩, v, hv, hvalid⟩ := hmixed
    obtain ⟨grants', hperm, hallows⟩ := allows_front hpolicy hg hpair
    have hallowed := h.exact.mpr ⟨v, hv, hvalid⟩
    exact hinvalid (hallows.mp ((h.unordered grants' hperm).mpr hallowed))
  · intro h
    refine ⟨allows_uniform hpolicy h, fun id hid => ?_, fun grants' hperm => ?_, fun g hallowed => ?_⟩
    · obtain ⟨g, hfind, hvalid, hname⟩ := (checkInvocation_ok hpolicy).mp hid
      exact ⟨g, List.mem_of_find?_eq_some hfind, hvalid, hname⟩
    · have h' : (∀ g ∈ grants', ForPair i g → Valid i g) ∨ ∀ g ∈ grants', ¬ Valid i g :=
        h.imp (fun hall g hg => hall g (hperm.mem_iff.mp hg)) fun hnone g hg => hnone g (hperm.mem_iff.mp hg)
      rw [allows_uniform hpolicy h, allows_uniform hpolicy h']
      exact exists_congr fun g => and_congr_left fun _ => hperm.mem_iff
    · rw [allows_iff hpolicy] at hallowed ⊢
      obtain ⟨first, hfind, hvalid⟩ := hallowed
      exact ⟨first, by rw [List.find?_append, hfind]; rfl, hvalid⟩

def sumInvocation : Invocation :=
  ⟨ofText "alice", true, ofText "sum:v1", .principalGranted, ofText "ns.finance", .ofInt 1000⟩

def grantOf (scope : String) : InvokeGrant :=
  ⟨ofText "g1", ofText "alice", ofText "sum:v1", ofText scope, none, ofText "alice"⟩

theorem grantSet_iff_finance : GrantSet sumInvocation [grantOf "ns.finance"] ↔
    (∀ g ∈ [grantOf "ns.finance"], ForPair sumInvocation g → Valid sumInvocation g) ∨
      ∀ g ∈ [grantOf "ns.finance"], ¬ Valid sumInvocation g :=
  grantSet_iff sumInvocation (Or.inl rfl) [grantOf "ns.finance"]

/-- A grant for another namespace, made before, hides the one for this. -/
theorem second_grant_hidden : ¬ ∀ grants, GrantSet sumInvocation grants := by
  intro h
  have hvalid : Valid sumInvocation (grantOf "ns.finance") := ⟨⟨rfl, rfl⟩, rfl, Or.inr rfl⟩
  obtain ⟨id, hid⟩ := (h [grantOf "ns.mail", grantOf "ns.finance"]).exact.mpr ⟨grantOf "ns.finance", by simp, hvalid⟩
  have hrefused : (checkInvocation sumInvocation [grantOf "ns.mail", grantOf "ns.finance"]).toOption.isSome = false := by
    decide
  rw [hid] at hrefused
  cases hrefused

end Sets

end VivimOmega.Gates

import VivimOmega.Vault.Readers

/-! What the prefix filter of a query selects. -/

namespace VivimOmega.Vault

open Library Library.Json

section Newest

variable {t : Tables} {ns : String} {row : QueryRow}

/-- The row is of the newest hot revision of its id. -/
def IsNewest (t : Tables) (ns : String) (row : QueryRow) : Prop :=
  ∃ o ∈ t.objects.rows, o.ns = ns ∧ (o.id = row.id ∧ o.rev = row.rev ∧ o.cid = row.cid) ∧
    ∀ other ∈ t.objects.rows, other.ns = ns → other.id = row.id → other.rev ≤ row.rev

lemma maxRev_eq_some_iff {rows : List ObjectRow} {id : String} {rev : ℤ} : maxRev rows ns id = some rev ↔
    (∃ o ∈ rows, (o.ns = ns ∧ o.id = id) ∧ o.rev = rev) ∧
      ∀ o ∈ rows, o.ns = ns → o.id = id → o.rev ≤ rev := by
  rw [maxRev, List.max?_eq_some_iff]
  simp only [List.mem_map, List.mem_filter, decide_eq_true_eq, forall_exists_index, and_imp]
  constructor
  · rintro ⟨⟨o, ⟨ho, hnamed⟩, hrev⟩, hle⟩
    exact ⟨⟨o, ho, hnamed, hrev⟩, fun o' ho' hns hid => hle _ o' ho' hns hid rfl⟩
  · rintro ⟨⟨o, ho, hnamed, hrev⟩, hle⟩
    refine ⟨⟨o, ⟨ho, hnamed⟩, hrev⟩, ?_⟩
    rintro _ o' ho' hns hid rfl
    exact hle o' ho' hns hid

lemma mem_queryObjects {filter : QueryFilter} : row ∈ queryObjects t ns filter ↔ IsNewest t ns row ∧
    (filter.idPrefix.all fun p => like (escapeLike p.toList ++ ['%']) row.id.toList) = true ∧
      (filter.minRev.all fun n => n ≤ row.rev) = true := by
  rw [queryObjects, (List.perm_insertionSort _ _).mem_iff, List.mem_map]
  simp only [List.mem_filter, Bool.and_eq_true, decide_eq_true_eq, maxRev_eq_some_iff, QueryFilter.admits]
  constructor
  · rintro ⟨o, ⟨ho, ⟨hns, _, hle⟩, hadmits⟩, rfl⟩
    exact ⟨⟨o, ho, hns, ⟨rfl, rfl, rfl⟩, hle⟩, hadmits⟩
  · rintro ⟨⟨o, ho, hns, ⟨hid, hrev, hcid⟩, hle⟩, hadmits⟩
    refine ⟨o, ⟨ho, ⟨hns, ⟨o, ho, ⟨hns, rfl⟩, rfl⟩, ?_⟩, ?_⟩, ?_⟩
    · rw [hid, hrev]
      exact hle
    · rw [hid, hrev]
      exact hadmits
    · rw [hid, hrev, hcid]

/-- One row for each id, in the order of the ids. -/
lemma queryObjects_ascending (t : Tables) (ns : String) (filter : QueryFilter) :
    (queryObjects t ns filter).Pairwise fun a b => a.id < b.id := by
  have hsorted : (queryObjects t ns filter).Pairwise fun a b => a.id ≤ b.id := by
    have htotal : Std.Total fun a b : QueryRow => a.id ≤ b.id := ⟨fun _ _ => le_total _ _⟩
    have htrans : IsTrans QueryRow fun a b => a.id ≤ b.id := ⟨fun _ _ _ => le_trans⟩
    exact List.pairwise_insertionSort _ _
  have hids : (queryObjects t ns filter).Pairwise fun a b => a.id ≠ b.id := by
    have hsymm : ∀ {a b : QueryRow}, a.id ≠ b.id → b.id ≠ a.id := Ne.symm
    rw [queryObjects, (List.perm_insertionSort _ _).pairwise_iff hsymm, List.pairwise_map]
    have hnodup : t.objects.rows.Nodup := t.objects.keyed.of_map
    refine (List.Pairwise.imp_of_mem ?_ (hnodup.filter _))
    intro a b ha hb hne hid
    simp only [List.mem_filter, Bool.and_eq_true, decide_eq_true_eq] at ha hb
    obtain ⟨ha, ⟨hans, hamax⟩, _⟩ := ha
    obtain ⟨hb, ⟨hbns, hbmax⟩, _⟩ := hb
    have hrev : a.rev = b.rev := by
      rw [show a.id = b.id from hid] at hamax
      exact Option.some.inj (hamax.symm.trans hbmax)
    refine hne (Table.eq_of_key ha hb ?_)
    rw [ObjectRow.key, ObjectRow.key, hans, hbns, hrev, show a.id = b.id from hid]
  exact (hsorted.and hids).imp fun h => lt_of_le_of_ne h.1 h.2

end Newest

section Prefix

def queryPayload (ns p : Name) (minRev : Option {n : ℤ // 0 ≤ n}) : Value :=
  .object [(ofText "ns", .string (ofText ns.1)), (ofText "filter", .object
    [(ofText "idPrefix", .string (ofText p.1)),
      (ofText "minRev", minRev.elim .undefined fun n => .number (Number.ofInt n.1))])]

lemma queryOp_payload (v : VaultDB) (ns p : Name) (minRev : Option {n : ℤ // 0 ≤ n}) :
    queryOp v (queryPayload ns p minRev) =
      .ok (queryObjects v.tables ns.1 ⟨some p.1, minRev.map Subtype.val⟩) := by
  have hname : ∀ (field : String) (n : Name), requireName "vault.query@1" field (.string (ofText n.1)) = .ok n := by
    intro field n
    have hn : IsName (toText (ofText n.1)) := by
      rw [toText_ofText]
      exact n.2
    rw [requireName_ok hn]
    exact congrArg Except.ok (Subtype.ext (toText_ofText n.1))
  have hrev : optionalInt "vault.query@1" "filter.minRev"
      (minRev.elim .undefined fun n => .number (Number.ofInt n.1)) 0 = .ok minRev := by
    cases minRev with
    | none => rfl
    | some n =>
      have hint : requireInt "vault.query@1" "filter.minRev" (.number (Number.ofInt n.1)) 0 = .ok n := by
        simp only [requireInt, isNullish, toInt?_ofInt, dif_pos n.2]
        rfl
      rw [Option.elim_some, optionalInt, hint]
      rfl
  change (do
    let ns ← requireName "vault.query@1" "ns" (.string (ofText ns.1))
    let idPrefix ← (requireName "vault.query@1" "filter.idPrefix" (.string (ofText p.1))).map some
    let minRev ← optionalInt "vault.query@1" "filter.minRev" (minRev.elim .undefined fun n => .number (Number.ofInt n.1)) 0
    return queryObjects v.tables ns.1 ⟨idPrefix.map Subtype.val, minRev.map Subtype.val⟩) = _
  rw [hname, hname, hrev]
  rfl

/-- The rows are exactly the newest ones of the ids that start with the prefix, in order. -/
def PrefixExact (t : Tables) (ns p : String) (minRev : Option ℤ) (rows : List QueryRow) : Prop :=
  (rows.Pairwise fun a b => a.id < b.id) ∧
    ∀ row, row ∈ rows ↔ IsNewest t ns row ∧ p.toList <+: row.id.toList ∧ (minRev.all fun n => n ≤ row.rev) = true

/-- No id that is asked for starts with the prefix only if the case of ASCII letters is put aside. -/
def CaseExact (t : Tables) (ns p : String) (minRev : Option ℤ) : Prop :=
  ∀ row, IsNewest t ns row → (minRev.all fun n => n ≤ row.rev) = true →
    p.toList.map Char.toLower <+: row.id.toList.map Char.toLower → p.toList <+: row.id.toList

theorem query_exact_iff (v : VaultDB) (ns p : Name) (minRev : Option {n : ℤ // 0 ≤ n}) :
    ∃ rows, queryOp v (queryPayload ns p minRev) = .ok rows ∧
      (PrefixExact v.tables ns.1 p.1 (minRev.map Subtype.val) rows ↔
        CaseExact v.tables ns.1 p.1 (minRev.map Subtype.val)) := by
  refine ⟨_, queryOp_payload v ns p minRev, ?_⟩
  constructor
  · rintro ⟨_, hmem⟩ row hnewest hrev hfolded
    refine ((hmem row).mp (mem_queryObjects.mpr ⟨hnewest, ?_, hrev⟩)).2.1
    exact (like_escapeLike _ _).mpr hfolded
  · intro hcase
    refine ⟨queryObjects_ascending _ _ _, fun row => mem_queryObjects.trans ?_⟩
    refine and_congr_right fun hnewest => ⟨fun ⟨hlike, hrev⟩ => ?_, fun ⟨hpre, hrev⟩ => ?_⟩
    · exact ⟨hcase row hnewest hrev ((like_escapeLike _ _).mp hlike), hrev⟩
    · exact ⟨(like_escapeLike _ _).mpr (hpre.map _), hrev⟩

def upperRow : ObjectRow := ⟨"notes", "Abc", 1, "c1", "{}"⟩

def upperVault : VaultDB := ⟨⟨⟨[upperRow], List.nodup_singleton _⟩, .empty, .empty, []⟩, .empty⟩

/-- The prefix a selects the id Abc. -/
theorem upper_selected : ¬ ∀ (v : VaultDB) (ns p : Name) (minRev : Option {n : ℤ // 0 ≤ n}),
    ∃ rows, queryOp v (queryPayload ns p minRev) = .ok rows ∧
      PrefixExact v.tables ns.1 p.1 (minRev.map Subtype.val) rows := by
  intro h
  obtain ⟨rows, hrows, _, hmem⟩ := h upperVault ⟨"notes", by decide⟩ ⟨"a", by decide⟩ none
  rw [queryOp_payload] at hrows
  cases hrows
  have hnewest : IsNewest upperVault.tables "notes" ⟨"Abc", 1, "c1"⟩ := by
    refine ⟨upperRow, List.mem_singleton.mpr rfl, rfl, ⟨rfl, rfl, rfl⟩, fun other hother _ _ => ?_⟩
    rw [List.mem_singleton.mp hother]
    exact le_rfl
  have hselected : (⟨"Abc", 1, "c1"⟩ : QueryRow) ∈ queryObjects upperVault.tables "notes" ⟨some "a", none⟩ :=
    mem_queryObjects.mpr ⟨hnewest, by decide, rfl⟩
  exact absurd ((hmem _).mp hselected).2.1 (by decide)

end Prefix

end VivimOmega.Vault

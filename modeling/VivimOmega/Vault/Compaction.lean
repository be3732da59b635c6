import VivimOmega.Vault.Changelog

/-! Compaction: superseded revisions move to the cold table unless a live object refers to them. -/

namespace VivimOmega.Vault

open Library Library.Json Program

structure CompactResult where
  moved : ℕ
  kept : ℕ
  protectedCount : ℕ
  deriving DecidableEq

/-- The counts of a pass, and the revisions it has moved. -/
structure Pass where
  moved : ℕ
  kept : ℕ
  protectedCount : ℕ
  movedTargets : List (String × ℤ)

def idRevLe (a b : String × ℤ) : Prop := a.1 < b.1 ∨ a.1 = b.1 ∧ a.2 ≤ b.2

instance (a b : String × ℤ) : Decidable (idRevLe a b) := inferInstanceAs (Decidable (_ ∨ _ ∧ _))

/-- The hot revisions of a namespace, by id and then by rev. -/
def idRevs (ns : String) (t : Tables) : List (String × ℤ) :=
  ((t.objects.rows.filter fun r => r.ns = ns).map fun r => (r.id, r.rev)).insertionSort idRevLe

def groupById (rows : List (String × ℤ)) : OrderedMap String (List ℤ) :=
  rows.foldl (fun byId row => byId.set row.1 ((byId.get? row.1).getD [] ++ [row.2])) OrderedMap.empty

/-- `INSERT … SELECT`: copies the row of a key into the cold table, if there is one. -/
def copyToCold (key : RevKey) (now : ℕ) : Sql Unit := Program.execute fun t =>
  match t.objects.find? key with
  | none => .ok t
  | some row =>
    match t.coldObjects.insert? ⟨row, now⟩ with
    | none => .error (constraintFailed "cold_objects")
    | some coldObjects => .ok { t with coldObjects }

def compactRevs (protectedRefs : List String) (ns id : String) (now : ℕ) :
    List ℤ → Pass → Sql Pass
  | [], pass => return pass
  | rev :: rest, pass =>
    if refKey ns id rev ∈ protectedRefs then
      compactRevs protectedRefs ns id now rest
        { pass with kept := pass.kept + 1, protectedCount := pass.protectedCount + 1 }
    else do
      copyToCold (ns, id, rev) now
      deleteObject (ns, id, rev)
      compactRevs protectedRefs ns id now rest
        { pass with moved := pass.moved + 1, movedTargets := pass.movedTargets ++ [(id, rev)] }

def compactIds (protectedRefs : List String) (ns : String) (keep now : ℕ) :
    List (String × List ℤ) → Pass → Sql Pass
  | [], pass => return pass
  | (id, revs) :: rest, pass => do
    let hot := revs.drop (revs.length - keep)
    let candidates := revs.take (revs.length - keep)
    let pass ← compactRevs protectedRefs ns id now candidates { pass with kept := pass.kept + hot.length }
    compactIds protectedRefs ns keep now rest pass

def compactTables (ns : String) (keep now : ℕ) : Sql CompactResult := do
  let live ← query liveRefs
  let protectedRefs ← value live
  let rows ← query (idRevs ns)
  control
  let pass ← compactIds protectedRefs ns keep now (groupById rows).entries ⟨0, 0, 0, []⟩
  ftsDeleteMany ns pass.movedTargets
  control
  return ⟨pass.moved, pass.kept, pass.protectedCount⟩

def compact (v : VaultDB) (ns : String) (keep : ℤ) (now : ℕ) (fault : Option (ℕ × String)) :
    Except String CompactResult × VaultDB :=
  if ns = "" then (.error "vault.compact@1: ns must be a non-empty string", v)
  else if keep < 1 then
    (.error ("vault.compact@1: keep must be an integer >= 1 (got " ++ toString keep ++ ")"), v)
  else
    let (result, tables) := transaction (compactTables ns keep.toNat now) v.tables fault
    (result, { v with tables })

/-- The payload of `vault.compact@1`, validated. -/
def compactOp (payload : KeyedValue) : Except String (Name × {n : ℤ // 1 ≤ n}) := do
  let p ← requireObject "vault.compact@1" payload.1
  let ns ← requireName "vault.compact@1" "ns" (optionalProperty p "ns")
  let keep ← requireInt "vault.compact@1" "keep" (optionalProperty p "keep") 1
  return (ns, keep)

section Moves

variable {t u w : Tables} {ns id : String} {now keep : ℕ} {refs : List String}

/-- The rows of the keys have gone from the hot table to the cold one. -/
structure Moved (now : ℕ) (keys : List RevKey) (t u : Tables) : Prop where
  objects : u.objects.rows = t.objects.rows.filter fun r => r.key ∉ keys
  cold : ∀ c, c ∈ u.coldObjects.rows ↔
    c ∈ t.coldObjects.rows ∨ ∃ r ∈ t.objects.rows, r.key ∈ keys ∧ c = ⟨r, now⟩
  changelog : u.changelog = t.changelog
  fts : u.ftsIndex = t.ftsIndex

lemma Moved.refl (now : ℕ) (t : Tables) : Moved now [] t t := by
  refine ⟨?_, fun c => ?_, rfl, rfl⟩
  · simp
  · simp

lemma Moved.trans {keys more : List RevKey} (h : Moved now keys t u) (h' : Moved now more u w) :
    Moved now (keys ++ more) t w := by
  refine ⟨?_, fun c => ?_, h'.changelog.trans h.changelog, h'.fts.trans h.fts⟩
  · rw [h'.objects, h.objects, List.filter_filter]
    apply List.filter_congr
    intro r _
    simp [Bool.and_comm]
  · rw [h'.cold, h.cold, h.objects, or_assoc]
    apply or_congr_right
    constructor
    · rintro (⟨r, hr, hkey, rfl⟩ | ⟨r, hr, hkey, rfl⟩)
      · exact ⟨r, hr, List.mem_append_left _ hkey, rfl⟩
      · exact ⟨r, List.mem_of_mem_filter hr, List.mem_append_right _ hkey, rfl⟩
    · rintro ⟨r, hr, hkey, rfl⟩
      by_cases hin : r.key ∈ keys
      · exact Or.inl ⟨r, hr, hin, rfl⟩
      · refine Or.inr ⟨r, ?_, ?_, rfl⟩
        · simpa using ⟨hr, hin⟩
        · exact (List.mem_append.mp hkey).resolve_left hin

lemma copyToCold_ok {key : RevKey} {β : Type} {g : Unit → Sql β} {b : β}
    (h : Runs (copyToCold key now >>= g) t b u) :
    ∃ w, w.objects = t.objects ∧ w.changelog = t.changelog ∧ w.ftsIndex = t.ftsIndex ∧
      (∀ c, c ∈ w.coldObjects.rows ↔
        c ∈ t.coldObjects.rows ∨ ∃ r ∈ t.objects.rows, r.key = key ∧ c = ⟨r, now⟩) ∧
      Runs (g ()) w b u := by
  obtain ⟨w, hw, h⟩ := runs_execute_bind h
  cases hfind : t.objects.find? key with
  | none =>
    simp only [hfind] at hw
    cases hw
    refine ⟨t, rfl, rfl, rfl, fun c => ?_, h⟩
    constructor
    · exact Or.inl
    · rintro (hc | ⟨r, hr, hkey, _⟩)
      · exact hc
      · exact absurd hkey (Table.find?_eq_none.mp hfind r hr)
  | some row =>
    obtain ⟨hrow, hkey⟩ := Table.find?_eq_some.mp hfind
    cases hins : t.coldObjects.insert? ⟨row, now⟩ with
    | none => simp [hfind, hins] at hw
    | some coldObjects =>
      simp only [hfind, hins] at hw
      cases hw
      obtain ⟨_, hrows⟩ := Table.insert?_eq_some.mp hins
      refine ⟨{ t with coldObjects }, rfl, rfl, rfl, fun c => ?_, h⟩
      rw [hrows, List.mem_append, List.mem_singleton]
      apply or_congr_right
      constructor
      · rintro rfl
        exact ⟨row, hrow, hkey, rfl⟩
      · rintro ⟨r, hr, hrkey, rfl⟩
        rw [Table.eq_of_key hr hrow (hrkey.trans hkey.symm)]

/-- One copy and one delete move the row of the key. -/
lemma move_ok {key : RevKey} {β : Type} {g : Unit → Sql β} {b : β}
    (h : Runs (copyToCold key now >>= fun _ => deleteObject key >>= g) t b u) :
    ∃ w, Moved now [key] t w ∧ Runs (g ()) w b u := by
  obtain ⟨w, hobjects, hlog, hfts, hcold, h⟩ := copyToCold_ok h
  obtain ⟨w', hw', h⟩ := runs_execute_bind h
  cases hw'
  refine ⟨{ w with objects := w.objects.delete fun r => r.key = key }, ⟨?_, ?_, hlog, hfts⟩, h⟩
  · rw [Table.rows_delete, hobjects]
    apply List.filter_congr
    intro r _
    simp
  · intro c
    simpa using hcold c

/-- The targets of a pass over the revs of one id. -/
lemma runs_compactRevs (revs : List ℤ) {pass pass' : Pass}
    (h : Runs (compactRevs refs ns id now revs pass) t pass' u) :
    ∃ targets : List ℤ, (∀ rev, rev ∈ targets ↔ rev ∈ revs ∧ refKey ns id rev ∉ refs) ∧
      pass'.movedTargets = pass.movedTargets ++ targets.map (fun rev => (id, rev)) ∧
      Moved now (targets.map fun rev => (ns, id, rev)) t u := by
  induction revs generalizing t pass with
  | nil =>
    rw [compactRevs] at h
    obtain ⟨rfl, rfl⟩ := runs_pure h
    exact ⟨[], by simp, by simp, Moved.refl now _⟩
  | cons rev rest ih =>
    rw [compactRevs] at h
    split_ifs at h with hprotected
    · obtain ⟨targets, hmem, hmoved, htables⟩ := ih h
      refine ⟨targets, fun r => ?_, hmoved, htables⟩
      rw [hmem, List.mem_cons]
      constructor
      · exact fun hr => ⟨Or.inr hr.1, hr.2⟩
      · rintro ⟨rfl | hr, hn⟩
        · exact absurd hprotected hn
        · exact ⟨hr, hn⟩
    · obtain ⟨w, hone, hrest⟩ := move_ok h
      obtain ⟨targets, hmem, hmoved, htables⟩ := ih hrest
      refine ⟨rev :: targets, fun r => ?_, ?_, ?_⟩
      · rw [List.mem_cons, List.mem_cons, hmem]
        constructor
        · rintro (rfl | hr)
          · exact ⟨Or.inl rfl, hprotected⟩
          · exact ⟨Or.inr hr.1, hr.2⟩
        · rintro ⟨rfl | hr, hn⟩
          · exact Or.inl rfl
          · exact Or.inr ⟨hr, hn⟩
      · rw [hmoved, List.append_assoc]
        rfl
      · exact hone.trans htables

lemma runs_compactIds (groups : List (String × List ℤ)) {pass pass' : Pass}
    (h : Runs (compactIds refs ns keep now groups pass) t pass' u) :
    ∃ targets : List (String × ℤ),
      (∀ x, x ∈ targets ↔ ∃ revs, (x.1, revs) ∈ groups ∧ x.2 ∈ revs.take (revs.length - keep) ∧
        refKey ns x.1 x.2 ∉ refs) ∧
      pass'.movedTargets = pass.movedTargets ++ targets ∧
      Moved now (targets.map fun x => (ns, x.1, x.2)) t u := by
  induction groups generalizing t pass with
  | nil =>
    rw [compactIds] at h
    obtain ⟨rfl, rfl⟩ := runs_pure h
    exact ⟨[], by simp, by simp, Moved.refl now _⟩
  | cons group rest ih =>
    obtain ⟨gid, revs⟩ := group
    rw [compactIds] at h
    obtain ⟨middle, w, hrevs, hrest⟩ := runs_bind h
    obtain ⟨first, hfirst, hmiddle, htables⟩ := runs_compactRevs _ hrevs
    obtain ⟨targets, hmem, hmoved, htables'⟩ := ih hrest
    refine ⟨first.map (fun rev => (gid, rev)) ++ targets, fun x => ?_, ?_, ?_⟩
    · rw [List.mem_append, hmem, List.mem_map]
      constructor
      · rintro (⟨rev, hrev, rfl⟩ | ⟨revs', hin, hx⟩)
        · exact ⟨revs, List.mem_cons_self, (hfirst rev).mp hrev⟩
        · exact ⟨revs', List.mem_cons_of_mem _ hin, hx⟩
      · rintro ⟨revs', hin, hx⟩
        rcases List.mem_cons.mp hin with he | hin
        · cases he
          exact Or.inl ⟨x.2, (hfirst x.2).mpr hx, rfl⟩
        · exact Or.inr ⟨revs', hin, hx⟩
    · rw [hmoved, hmiddle, List.append_assoc]
    · have hh := htables.trans htables'
      simpa [List.map_append, List.map_map, Function.comp_def] using hh

end Moves

section Spec

variable {t u : Tables} {ns id : String} {now keep : ℕ}

/-- The hot revisions of one id, ascending. -/
def hotRevs (t : Tables) (ns id : String) : List ℤ :=
  ((idRevs ns t).filter fun x => x.1 = id).map Prod.snd

lemma get?_groupById (rows : List (String × ℤ)) (id : String) :
    (groupById rows).get? id =
      if rows.filter (fun x => x.1 = id) = [] then none
      else some ((rows.filter fun x => x.1 = id).map Prod.snd) := by
  have hfold : ∀ (rows : List (String × ℤ)) (m : OrderedMap String (List ℤ)),
      (rows.foldl (fun byId row => byId.set row.1 ((byId.get? row.1).getD [] ++ [row.2])) m).get? id =
        if rows.filter (fun x => x.1 = id) = [] then m.get? id
        else some ((m.get? id).getD [] ++ (rows.filter fun x => x.1 = id).map Prod.snd) := by
    intro rows
    induction rows with
    | nil => intro m; rfl
    | cons row rest ih =>
      intro m
      rw [List.foldl_cons, ih]
      by_cases hid : row.1 = id
      · subst hid
        simp only [OrderedMap.get?_set_self, List.filter_cons, decide_true, if_true, List.map_cons,
          Option.getD_some, List.append_assoc, List.singleton_append, reduceCtorEq, if_false]
        split_ifs with hnil
        · rw [hnil]
          rfl
        · rfl
      · rw [OrderedMap.get?_set_of_ne _ _ (Ne.symm hid), List.filter_cons_of_neg (by simpa using hid)]
  rw [groupById, hfold, OrderedMap.get?_empty]
  rfl

lemma idRevLe_total (a b : String × ℤ) : idRevLe a b ∨ idRevLe b a := by
  unfold idRevLe
  rcases lt_trichotomy a.1 b.1 with h | h | h
  · exact Or.inl (Or.inl h)
  · rcases le_total a.2 b.2 with hle | hle
    · exact Or.inl (Or.inr ⟨h, hle⟩)
    · exact Or.inr (Or.inr ⟨h.symm, hle⟩)
  · exact Or.inr (Or.inl h)

lemma idRevLe_trans {a b c : String × ℤ} (hab : idRevLe a b) (hbc : idRevLe b c) : idRevLe a c := by
  unfold idRevLe at *
  rcases hab with hab | ⟨hab, hle⟩
  · rcases hbc with hbc | ⟨hbc, _⟩
    · exact Or.inl (lt_trans hab hbc)
    · exact Or.inl (hbc ▸ hab)
  · rcases hbc with hbc | ⟨hbc, hle'⟩
    · exact Or.inl (hab ▸ hbc)
    · exact Or.inr ⟨hab.trans hbc, le_trans hle hle'⟩

instance : Std.Total idRevLe := ⟨idRevLe_total⟩

instance : IsTrans (String × ℤ) idRevLe := ⟨fun _ _ _ => idRevLe_trans⟩

lemma mem_idRevs {x : String × ℤ} :
    x ∈ idRevs ns t ↔ ∃ r ∈ t.objects.rows, r.key = (ns, x.1, x.2) := by
  rw [idRevs, List.mem_insertionSort, List.mem_map]
  constructor
  · rintro ⟨r, hr, rfl⟩
    obtain ⟨hmem, hns⟩ := List.mem_filter.mp hr
    exact ⟨r, hmem, by rw [ObjectRow.key, of_decide_eq_true hns]⟩
  · rintro ⟨r, hr, hkey⟩
    obtain ⟨hns, hx⟩ := Prod.mk.inj hkey
    exact ⟨r, List.mem_filter.mpr ⟨hr, decide_eq_true hns⟩, hx⟩

lemma mem_hotRevs {rev : ℤ} :
    rev ∈ hotRevs t ns id ↔ ∃ r ∈ t.objects.rows, r.key = (ns, id, rev) := by
  rw [hotRevs, List.mem_map]
  constructor
  · rintro ⟨x, hx, rfl⟩
    obtain ⟨hmem, hid⟩ := List.mem_filter.mp hx
    obtain ⟨r, hr, hkey⟩ := mem_idRevs.mp hmem
    exact ⟨r, hr, by rw [hkey, of_decide_eq_true hid]⟩
  · rintro ⟨r, hr, hkey⟩
    exact ⟨(id, rev), List.mem_filter.mpr ⟨mem_idRevs.mpr ⟨r, hr, hkey⟩, by simp⟩, rfl⟩

lemma idRevs_nodup : (idRevs ns t).Nodup := by
  refine (List.perm_insertionSort _ _).nodup_iff.mpr (List.Nodup.map_on ?_ ?_)
  · intro r hr s hs he
    obtain ⟨hr, hrns⟩ := List.mem_filter.mp hr
    obtain ⟨hs, hsns⟩ := List.mem_filter.mp hs
    apply Table.eq_of_key hr hs
    rw [ObjectRow.key, ObjectRow.key, of_decide_eq_true hrns, of_decide_eq_true hsns]
    exact congrArg _ he
  · exact (List.Nodup.of_map _ t.objects.keyed).filter _

lemma hotRevs_sorted : (hotRevs t ns id).Pairwise (· < ·) := by
  have hsorted : ((idRevs ns t).filter fun x => x.1 = id).Pairwise idRevLe :=
    (List.pairwise_insertionSort idRevLe _).filter _
  have hnodup : ((idRevs ns t).filter fun x => x.1 = id).Nodup := idRevs_nodup.filter _
  rw [hotRevs, List.pairwise_map]
  refine List.Pairwise.imp_of_mem ?_ (hsorted.and hnodup)
  intro x y hx hy hxy
  obtain ⟨hle, hne⟩ := hxy
  have hxid := of_decide_eq_true (List.mem_filter.mp hx).2
  have hyid := of_decide_eq_true (List.mem_filter.mp hy).2
  rcases hle with hlt | ⟨_, hle⟩
  · rw [hxid, hyid] at hlt
    exact absurd hlt (lt_irrefl _)
  · refine lt_of_le_of_ne hle fun he => hne (Prod.ext (hxid.trans hyid.symm) he)

/-- A superseded revision has as many newer ones as are kept. -/
lemma keep_le_newer {revs : List ℤ} {rev : ℤ} (hsorted : revs.Pairwise (· < ·))
    (h : rev ∈ revs.take (revs.length - keep)) : keep ≤ (revs.filter fun r => rev < r).length := by
  have hlen : keep ≤ revs.length := by
    by_contra hlt
    have hzero : revs.length - keep = 0 := by omega
    rw [hzero] at h
    cases h
  have hdrop : (revs.drop (revs.length - keep)).length = keep := by
    rw [List.length_drop]
    omega
  have hnewer : ∀ r ∈ revs.drop (revs.length - keep), rev < r := by
    intro r hr
    rw [← List.take_append_drop (revs.length - keep) revs] at hsorted
    exact (List.pairwise_append.mp hsorted).2.2 rev h r hr
  calc keep = (revs.drop (revs.length - keep)).length := hdrop.symm
    _ = ((revs.drop (revs.length - keep)).filter fun r => rev < r).length := by
      rw [List.filter_eq_self.mpr fun r hr => decide_eq_true (hnewer r hr)]
    _ ≤ (revs.filter fun r => rev < r).length :=
      ((List.drop_sublist _ revs).filter _).length_le

/-- The keys that a compaction moves. -/
def Superseded (t : Tables) (ns : String) (keep : ℕ) (refs : List String) (key : RevKey) : Prop :=
  key.1 = ns ∧ key.2.2 ∈ (hotRevs t ns key.2.1).take ((hotRevs t ns key.2.1).length - keep) ∧
    refKey ns key.2.1 key.2.2 ∉ refs

/-- What a committed compaction has done to the tables. -/
structure Compacted (ns : String) (keep now : ℕ) (refs : List String) (keys : List RevKey)
    (t u : Tables) : Prop where
  live : liveRefs t = .ok refs
  superseded : ∀ key, key ∈ keys ↔ Superseded t ns keep refs key
  objects : u.objects.rows = t.objects.rows.filter fun r => r.key ∉ keys
  cold : ∀ c, c ∈ u.coldObjects.rows ↔
    c ∈ t.coldObjects.rows ∨ ∃ r ∈ t.objects.rows, r.key ∈ keys ∧ c = ⟨r, now⟩
  changelog : u.changelog = t.changelog
  fts : u.ftsIndex = t.ftsIndex.filter fun r => r.key ∉ keys

lemma mem_groups {revs : List ℤ} :
    (id, revs) ∈ (groupById (idRevs ns t)).entries ↔ revs ≠ [] ∧ revs = hotRevs t ns id := by
  have hget := get?_groupById (idRevs ns t) id
  constructor
  · intro h
    rw [OrderedMap.get?_of_mem h] at hget
    split_ifs at hget with hnil
    cases hget
    exact ⟨fun he => hnil (List.map_eq_nil_iff.mp he), rfl⟩
  · rintro ⟨hne, rfl⟩
    rw [if_neg fun hnil => hne (by rw [hotRevs, hnil]; rfl)] at hget
    exact OrderedMap.mem_of_get? hget

lemma runs_ftsDeleteMany {targets : List (String × ℤ)} {a : Unit}
    (h : Runs (ftsDeleteMany ns targets) t a u) :
    u = { t with ftsIndex := t.ftsIndex.filter fun r => !(r.ns = ns ∧ (r.id, r.rev) ∈ targets) } := by
  unfold ftsDeleteMany at h
  split_ifs at h with hnil
  · obtain ⟨_, rfl⟩ := runs_pure h
    subst hnil
    simp
  · have hh := runs_execute h
    cases hh
    rfl

lemma runs_compactTables {result : CompactResult} (h : Runs (compactTables ns keep now) t result u) :
    ∃ refs keys, Compacted ns keep now refs keys t u := by
  have hlive := runs_query_bind h
  obtain ⟨refs, hrefs, hrows⟩ := runs_value_bind hlive
  have hbegin := runs_query_bind hrows
  have hloop := runs_control_bind hbegin
  obtain ⟨pass, w, hpass, hdelete⟩ := runs_bind hloop
  obtain ⟨targets, hmem, hmoved, htables⟩ := runs_compactIds _ hpass
  rw [List.nil_append] at hmoved
  obtain ⟨_, w', hfts, hcommit⟩ := runs_bind hdelete
  obtain rfl := runs_ftsDeleteMany hfts
  have hend := runs_control_bind hcommit
  obtain ⟨_, rfl⟩ := runs_pure hend
  refine ⟨refs, targets.map fun x => (ns, x.1, x.2), hrefs, fun key => ?_, htables.objects,
    htables.cold, htables.changelog, ?_⟩
  · rw [List.mem_map]
    constructor
    · rintro ⟨x, hx, rfl⟩
      obtain ⟨revs, hin, htake, hfree⟩ := (hmem x).mp hx
      obtain ⟨_, rfl⟩ := mem_groups.mp hin
      exact ⟨rfl, htake, hfree⟩
    · rintro ⟨rfl, htake, hfree⟩
      refine ⟨key.2, (hmem key.2).mpr ⟨hotRevs t key.1 key.2.1, mem_groups.mpr ⟨?_, rfl⟩, htake, hfree⟩,
        rfl⟩
      intro hnil
      rw [hnil, List.take_nil] at htake
      cases htake
  · dsimp only
    rw [htables.fts, hmoved]
    apply List.filter_congr
    intro r _
    have hiff : (r.ns = ns ∧ (r.id, r.rev) ∈ targets) ↔
        r.key ∈ targets.map fun x => (ns, x.1, x.2) := by
      rw [List.mem_map]
      constructor
      · rintro ⟨rfl, hin⟩
        exact ⟨_, hin, rfl⟩
      · rintro ⟨x, hx, he⟩
        obtain ⟨hns, hrest⟩ := Prod.mk.inj he
        exact ⟨hns.symm, hrest ▸ hx⟩
    rw [decide_not, decide_eq_decide.mpr hiff]

/-- A compaction either fails and leaves the tables alone, or commits all its moves. -/
lemma compact_cases (v : VaultDB) (ns : String) (keep : ℤ) (now : ℕ) (fault : Option (ℕ × String)) :
    (∃ e, compact v ns keep now fault = (.error e, v)) ∨
      ∃ result u refs keys, 1 ≤ keep ∧ Compacted ns keep.toNat now refs keys v.tables u ∧
        compact v ns keep now fault = (.ok result, { v with tables := u }) := by
  unfold compact
  split_ifs with hns hkeep
  · exact Or.inl ⟨_, rfl⟩
  · exact Or.inl ⟨_, rfl⟩
  · rcases transaction_cases (compactTables ns keep.toNat now) v.tables fault with
      ⟨e, he⟩ | ⟨result, u, hok, hruns⟩
    · rw [he]
      exact Or.inl ⟨e, rfl⟩
    · rw [hok]
      obtain ⟨refs, keys, hcompacted⟩ := runs_compactTables hruns
      exact Or.inr ⟨result, u, refs, keys, by omega, hcompacted, rfl⟩

end Spec

end VivimOmega.Vault

import VivimOmega.Discovery.Healing

/-! Drift as a measure: its range, where it is zero, and what it never hides. -/

namespace VivimOmega.Discovery

open Library Library.Json

section Rounding

variable (rounded : ℚ → ℚ)

/-- The computation of drift, where every result of arithmetic is rounded in the same way. -/
def diceWith (a b : JsString) : ℚ :=
  if grams a = [] ∨ grams b = [] then 0
  else rounded (2 * ((grams b).bagInter (grams a)).length / ((grams a).length + (grams b).length))

def stringAxisWith (axis : Axis) (a b : Option JsString) (graded : Bool) : DriftAxisReport :=
  match a, b with
  | some a, some b =>
    if a = [] ∨ b = [] then ⟨axis, false, 0⟩
    else if a = b then ⟨axis, true, 0⟩
    else ⟨axis, true, if graded then rounded (1 - diceWith rounded a b) else 1⟩
  | _, _ => ⟨axis, false, 0⟩

def rateKeys (a b : List (JsString × ℚ)) : List JsString :=
  (a.map Prod.fst ++ b.map Prod.fst).eraseDups.insertionSort fun x y => x ≤ y

def ratesAxisWith (a b : Option (List (JsString × ℚ))) : DriftAxisReport :=
  match a, b with
  | some a, some b =>
    if a = [] then ⟨.outcomeRates, false, 0⟩
    else
      let l1 := (rateKeys a b).foldl (fun l1 k => rounded (l1 + |rounded (rate a k - rate b k)|)) 0
      ⟨.outcomeRates, true, min 1 (rounded (l1 / 2))⟩
  | _, _ => ⟨.outcomeRates, false, 0⟩

def computeDriftWith (contract : SurfaceContract) (observation : FreshObservation) : DriftReport :=
  let axes := [stringAxisWith rounded .selector contract.selector observation.selector true,
    stringAxisWith rounded .actionType contract.actionType observation.actionType false,
    stringAxisWith rounded .riskHint contract.riskHint observation.riskHint false,
    ratesAxisWith rounded contract.outcomeRates observation.outcomeRates]
  ⟨((axes.filter DriftAxisReport.compared).map DriftAxisReport.diff).foldr max 0, axes⟩

/-- The drift that the code computes is the one whose arithmetic is that of doubles. -/
theorem computeDrift_eq : computeDrift = computeDriftWith double := rfl

/-- Drift over exact rationals. -/
def exactDrift : SurfaceContract → FreshObservation → DriftReport := computeDriftWith fun q => q

end Rounding

section Worst

lemma worst_nonneg (diffs : List ℚ) : 0 ≤ diffs.foldr max 0 := by
  induction diffs with
  | nil => exact le_refl 0
  | cons x diffs ih => exact le_max_of_le_right ih

lemma le_worst {diffs : List ℚ} {x : ℚ} (hx : x ∈ diffs) : x ≤ diffs.foldr max 0 := by
  induction diffs with
  | nil => cases hx
  | cons y diffs ih =>
    rcases List.mem_cons.mp hx with rfl | hx
    · exact le_max_left _ _
    · exact (ih hx).trans (le_max_right _ _)

lemma worst_le {diffs : List ℚ} {c : ℚ} (hc : 0 ≤ c) (h : ∀ x ∈ diffs, x ≤ c) : diffs.foldr max 0 ≤ c := by
  induction diffs with
  | nil => exact hc
  | cons x diffs ih =>
    obtain ⟨hx, hrest⟩ := List.forall_mem_cons.mp h
    exact max_le hx (ih hrest)

end Worst

section Selectors

variable {a b : JsString}

/-- Selectors that the graded comparison does not tell apart. -/
def SimilarText (a b : JsString) : Prop := a = b ∨ grams a ≠ [] ∧ (grams a).Perm (grams b)

lemma SimilarText.symm (h : SimilarText a b) : SimilarText b a := by
  rcases h with rfl | ⟨hne, hperm⟩
  · exact .inl rfl
  · refine .inr ⟨fun hnil => hne ?_, hperm.symm⟩
    rw [hnil] at hperm
    exact List.perm_nil.mp hperm

/-- How many bigrams two texts have in common, each as often as both of them have it. -/
def common (a b : JsString) : ℕ := (@List.bagInter _ instBEqOfDecidableEq (grams b) (grams a)).length

lemma diceWith_eq (rounded : ℚ → ℚ) (a b : JsString) : diceWith rounded a b =
    if grams a = [] ∨ grams b = [] then 0 else rounded (2 * common a b / ((grams a).length + (grams b).length)) := by
  have hbeq : (instBEqProd : BEq (UInt16 × UInt16)) = instBEqOfDecidableEq := lawful_beq_subsingleton _ _
  rw [diceWith, common, hbeq]

lemma common_comm (a b : JsString) : common a b = common b a := (List.Perm.bagInter_symm (grams b) (grams a)).length_eq

lemma common_le (a b : JsString) : common a b ≤ (grams b).length := List.bagInter_sublist_left.length_le

lemma bagInter_perm {α : Type} [DecidableEq α] {l l' : List α} (h : l.Perm l') : (l.bagInter l').Perm l := by
  rw [List.perm_iff_count]
  intro x
  rw [List.count_bagInter, h.count_eq, min_self]

/-- All the bigrams are common just to texts with the same bag of them. -/
lemma common_all : common a b = (grams a).length ∧ common a b = (grams b).length ↔ (grams a).Perm (grams b) := by
  constructor
  · rintro ⟨ha, hb⟩
    rw [common_comm] at ha
    have hleft := List.bagInter_sublist_left.eq_of_length hb
    have hright := List.bagInter_sublist_left.eq_of_length ha
    have hsymm := List.Perm.bagInter_symm (grams a) (grams b)
    rwa [hleft, hright] at hsymm
  · intro h
    have hself : common a b = (grams b).length := (bagInter_perm h.symm).length_eq
    exact ⟨hself.trans h.length_eq.symm, hself⟩

lemma dice_range (a b : JsString) : 0 ≤ diceWith (fun q => q) a b ∧ diceWith (fun q => q) a b ≤ 1 := by
  rw [diceWith_eq]
  split_ifs with hnil
  · exact ⟨le_refl 0, zero_le_one⟩
  · have ha : (common a b : ℚ) ≤ (grams a).length := by
      rw [common_comm]
      exact_mod_cast common_le b a
    have hb : (common a b : ℚ) ≤ (grams b).length := by exact_mod_cast common_le a b
    refine ⟨by positivity, div_le_one_of_le₀ ?_ (by positivity)⟩
    linarith

lemma dice_one_iff (hne : a ≠ b) : diceWith (fun q => q) a b = 1 ↔ SimilarText a b := by
  rw [diceWith_eq, SimilarText]
  split_ifs with hnil
  · refine iff_of_false zero_ne_one ?_
    rintro (heq | ⟨ha, hperm⟩)
    · exact hne heq
    · rcases hnil with hnil | hnil
      · exact ha hnil
      · rw [hnil] at hperm
        exact ha (List.perm_nil.mp hperm)
  · obtain ⟨hnila, -⟩ := not_or.mp hnil
    have ha := common_le b a
    have hb := common_le a b
    rw [common_comm] at ha
    have hpos : (0 : ℚ) < (grams a).length + (grams b).length := by
      have hlength := List.length_pos_iff.mpr hnila
      positivity
    rw [div_eq_one_iff_eq hpos.ne', ← common_all]
    have hsum : (2 * common a b : ℚ) = (grams a).length + (grams b).length ↔
        2 * common a b = (grams a).length + (grams b).length := by exact_mod_cast Iff.rfl
    rw [hsum]
    constructor
    · intro heq
      exact .inr ⟨hnila, by omega, by omega⟩
    · rintro (heq | ⟨-, hla, hlb⟩)
      · exact absurd heq hne
      · omega

lemma dice_comm (a b : JsString) : diceWith (fun q => q) a b = diceWith (fun q => q) b a := by
  rw [diceWith_eq, diceWith_eq, common_comm, add_comm]
  simp only [or_comm]

variable {axis : Axis} {x y : Option JsString} {graded : Bool}

lemma stringAxis_range (axis : Axis) (x y : Option JsString) (graded : Bool) :
    0 ≤ (stringAxisWith (fun q => q) axis x y graded).diff ∧ (stringAxisWith (fun q => q) axis x y graded).diff ≤ 1 := by
  have hzero : (0 : ℚ) ≤ 0 ∧ (0 : ℚ) ≤ 1 := ⟨le_refl 0, zero_le_one⟩
  cases x with
  | none => exact hzero
  | some a =>
    cases y with
    | none => exact hzero
    | some b =>
      obtain ⟨hlow, hhigh⟩ := dice_range a b
      rw [stringAxisWith]
      split_ifs
      · exact hzero
      · exact hzero
      · exact ⟨by linarith, by linarith⟩
      · exact ⟨zero_le_one, le_refl 1⟩

/-- Two texts that are compared count as the same. -/
def SameText (graded : Bool) (x y : Option JsString) : Prop :=
  ∀ a ∈ x, ∀ b ∈ y, a ≠ [] → b ≠ [] → if graded then SimilarText a b else a = b

lemma stringAxis_zero : (stringAxisWith (fun q => q) axis x y graded).diff = 0 ↔ SameText graded x y := by
  cases x with
  | none => exact iff_of_true rfl fun a ha => by cases ha
  | some a =>
    cases y with
    | none => exact iff_of_true rfl fun _ _ b hb => by cases hb
    | some b =>
      have hsame : SameText graded (some a) (some b) ↔ (a ≠ [] → b ≠ [] → if graded then SimilarText a b else a = b) := by
        simp [SameText]
      rw [hsame, stringAxisWith]
      by_cases hnil : a = [] ∨ b = []
      · rw [if_pos hnil]
        refine iff_of_true rfl fun ha hb => ?_
        rcases hnil with hnil | hnil
        · exact absurd hnil ha
        · exact absurd hnil hb
      · obtain ⟨hnila, hnilb⟩ := not_or.mp hnil
        rw [if_neg hnil]
        by_cases heq : a = b
        · rw [if_pos heq]
          refine iff_of_true rfl fun _ _ => ?_
          cases graded
          · exact heq
          · exact .inl heq
        · rw [if_neg heq]
          cases graded
          · exact iff_of_false one_ne_zero fun hall => heq (hall hnila hnilb)
          · have hone := dice_one_iff heq
            constructor
            · intro hdiff _ _
              exact hone.mp (sub_eq_zero.mp hdiff).symm
            · intro hall
              exact sub_eq_zero.mpr (hone.mpr (hall hnila hnilb)).symm

lemma stringAxis_comm (axis : Axis) (x y : Option JsString) (graded : Bool) :
    stringAxisWith (fun q => q) axis x y graded = stringAxisWith (fun q => q) axis y x graded := by
  cases x with
  | none => cases y <;> rfl
  | some a =>
    cases y with
    | none => rfl
    | some b =>
      rw [stringAxisWith, stringAxisWith, dice_comm]
      simp only [or_comm, eq_comm]

lemma stringAxis_flip {a b : JsString} (ha : a ≠ []) (hb : b ≠ []) (hne : a ≠ b) (axis : Axis) :
    stringAxisWith (fun q => q) axis (some a) (some b) false = ⟨axis, true, 1⟩ := by
  rw [stringAxisWith, if_neg (not_or.mpr ⟨ha, hb⟩), if_neg hne]
  rfl

end Selectors

section Rates

variable {a b : List (JsString × ℚ)} {x y : Option (List (JsString × ℚ))}

/-- How far two tables of rates are apart, where a key that one side lacks has rate zero there. -/
def apart (a b : List (JsString × ℚ)) : ℚ := ((rateKeys a b).map fun k => |rate a k - rate b k|).sum

lemma ratesAxis_eq (h : a ≠ []) : ratesAxisWith (fun q => q) (some a) (some b) = ⟨.outcomeRates, true, min 1 (apart a b / 2)⟩ := by
  have hfold : ∀ (keys : List JsString) (l1 : ℚ),
      keys.foldl (fun l1 k => l1 + |rate a k - rate b k|) l1 = l1 + (keys.map fun k => |rate a k - rate b k|).sum := by
    intro keys
    induction keys with
    | nil => simp
    | cons k keys ih =>
      intro l1
      rw [List.foldl_cons, ih, List.map_cons, List.sum_cons, add_assoc]
  rw [ratesAxisWith, if_neg h]
  dsimp only
  rw [hfold, zero_add, apart]

lemma mem_rateKeys {k : JsString} : k ∈ rateKeys a b ↔ k ∈ a.map Prod.fst ∨ k ∈ b.map Prod.fst := by
  rw [rateKeys, List.mem_insertionSort, List.mem_eraseDups, List.mem_append]

lemma rate_absent {k : JsString} (h : k ∉ a.map Prod.fst) : rate a k = 0 := by
  have hnone : a.lookup k = none := by
    rw [List.lookup_eq_none_iff]
    intro p hp
    simpa using fun heq => h (List.mem_map.mpr ⟨p, hp, heq.symm⟩)
  rw [rate, hnone]
  rfl

lemma apart_nonneg (a b : List (JsString × ℚ)) : 0 ≤ apart a b := by
  apply List.sum_nonneg
  intro q hq
  obtain ⟨k, -, rfl⟩ := List.mem_map.mp hq
  exact abs_nonneg _

lemma apart_zero : apart a b = 0 ↔ ∀ k, rate a k = rate b k := by
  constructor
  · intro h k
    by_cases hk : k ∈ rateKeys a b
    · have hnonneg : ∀ q ∈ (rateKeys a b).map fun k => |rate a k - rate b k|, 0 ≤ q := by
        intro q hq
        obtain ⟨k, -, rfl⟩ := List.mem_map.mp hq
        exact abs_nonneg _
      have hle := List.single_le_sum hnonneg _ (List.mem_map_of_mem hk)
      rw [← apart, h] at hle
      exact sub_eq_zero.mp (abs_eq_zero.mp (le_antisymm hle (abs_nonneg _)))
    · obtain ⟨ha, hb⟩ := not_or.mp (mt mem_rateKeys.mpr hk)
      rw [rate_absent ha, rate_absent hb]
  · intro h
    rw [apart]
    apply List.sum_eq_zero
    intro q hq
    obtain ⟨k, -, rfl⟩ := List.mem_map.mp hq
    rw [h k, sub_self, abs_zero]

lemma nodup_eraseDups {α : Type} [BEq α] [LawfulBEq α] (l : List α) : l.eraseDups.Nodup := by
  induction h : l.length using Nat.strongRecOn generalizing l with
  | _ n ih =>
    cases l with
    | nil => exact List.nodup_nil
    | cons x rest =>
      have hshort : (rest.filter fun y => !y == x).length < n := by
        have hle := List.length_filter_le (fun y => !y == x) rest
        simp only [List.length_cons] at h
        omega
      rw [List.eraseDups_cons, List.nodup_cons, List.mem_eraseDups, List.mem_filter]
      exact ⟨fun hx => by simp at hx, ih _ hshort _ rfl⟩

lemma apart_comm (a b : List (JsString × ℚ)) : apart a b = apart b a := by
  have hkeys : (rateKeys a b).Perm (rateKeys b a) := by
    refine (List.perm_insertionSort _ _).trans (List.Perm.trans ?_ (List.perm_insertionSort _ _).symm)
    rw [List.perm_ext_iff_of_nodup (nodup_eraseDups _) (nodup_eraseDups _)]
    intro k
    rw [List.mem_eraseDups, List.mem_eraseDups, List.mem_append, List.mem_append, or_comm]
  rw [apart, apart, (hkeys.map _).sum_eq]
  simp only [abs_sub_comm]

/-- Two tables that are compared, of which the first is not empty, have the same rates. -/
def SameRates (x y : Option (List (JsString × ℚ))) : Prop := ∀ a ∈ x, ∀ b ∈ y, a ≠ [] → ∀ k, rate a k = rate b k

lemma ratesAxis_range (x y : Option (List (JsString × ℚ))) :
    0 ≤ (ratesAxisWith (fun q => q) x y).diff ∧ (ratesAxisWith (fun q => q) x y).diff ≤ 1 := by
  have hzero : (0 : ℚ) ≤ 0 ∧ (0 : ℚ) ≤ 1 := ⟨le_refl 0, zero_le_one⟩
  cases x with
  | none => exact hzero
  | some a =>
    cases y with
    | none => exact hzero
    | some b =>
      by_cases hnil : a = []
      · rw [ratesAxisWith, if_pos hnil]
        exact hzero
      · rw [ratesAxis_eq hnil]
        have hnonneg := apart_nonneg a b
        exact ⟨le_min zero_le_one (by positivity), min_le_left _ _⟩

lemma ratesAxis_zero : (ratesAxisWith (fun q => q) x y).diff = 0 ↔ SameRates x y := by
  cases x with
  | none => exact iff_of_true rfl fun a ha => by cases ha
  | some a =>
    cases y with
    | none => exact iff_of_true rfl fun _ _ b hb => by cases hb
    | some b =>
      have hsame : SameRates (some a) (some b) ↔ (a ≠ [] → ∀ k, rate a k = rate b k) := by
        simp [SameRates]
      rw [hsame]
      by_cases hnil : a = []
      · rw [ratesAxisWith, if_pos hnil]
        exact iff_of_true rfl fun hne => absurd hnil hne
      · rw [ratesAxis_eq hnil, ← apart_zero]
        have hnonneg := apart_nonneg a b
        constructor
        · intro hmin _
          rcases min_choice 1 (apart a b / 2) with hone | hhalf
          · rw [hone] at hmin
            exact absurd hmin one_ne_zero
          · rw [hhalf] at hmin
            linarith
        · intro hzero
          rw [hzero hnil]
          norm_num

lemma ratesAxis_comm (h : ∀ a ∈ x, ∀ b ∈ y, a = [] ↔ b = []) :
    ratesAxisWith (fun q => q) x y = ratesAxisWith (fun q => q) y x := by
  cases x with
  | none => cases y <;> rfl
  | some a =>
    cases y with
    | none => rfl
    | some b =>
      have hempty : a = [] ↔ b = [] := h a rfl b rfl
      by_cases hnil : a = []
      · rw [ratesAxisWith, ratesAxisWith, if_pos hnil, if_pos (hempty.mp hnil)]
      · rw [ratesAxis_eq hnil, ratesAxis_eq (mt hempty.mpr hnil), apart_comm]

end Rates

section Measure

/-- What one side shows, seen as an observation, and an observation as a side to compare with. -/
def SurfaceContract.observed (c : SurfaceContract) : FreshObservation := ⟨c.selector, c.actionType, c.riskHint, c.outcomeRates⟩

def SurfaceContract.withObserved (c : SurfaceContract) (o : FreshObservation) : SurfaceContract :=
  { c with selector := o.selector, actionType := o.actionType, riskHint := o.riskHint, outcomeRates := o.outcomeRates }

variable (contract : SurfaceContract) (observation : FreshObservation)

/-- The two sides agree on every axis that both of them supply. -/
structure Agrees : Prop where
  selector : SameText true contract.selector observation.selector
  actionType : SameText false contract.actionType observation.actionType
  riskHint : SameText false contract.riskHint observation.riskHint
  outcomeRates : SameRates contract.outcomeRates observation.outcomeRates

def Flipped (x y : Option JsString) : Prop := ∃ a ∈ x, ∃ b ∈ y, a ≠ [] ∧ b ≠ [] ∧ a ≠ b

structure DriftMeasure : Prop where
  range : 0 ≤ (exactDrift contract observation).score ∧ (exactDrift contract observation).score ≤ 1
  zero : (exactDrift contract observation).score = 0 ↔ Agrees contract observation
  swap : (∀ a ∈ contract.outcomeRates, ∀ b ∈ observation.outcomeRates, a = [] ↔ b = []) →
    (exactDrift (contract.withObserved observation) contract.observed).score = (exactDrift contract observation).score
  worst : ∀ axis ∈ (exactDrift contract observation).axes, axis.compared = true → axis.diff ≤ (exactDrift contract observation).score
  flipped : Flipped contract.actionType observation.actionType ∨ Flipped contract.riskHint observation.riskHint →
    (exactDrift contract observation).score = 1

variable {contract observation}

lemma axis_le_score {axis : DriftAxisReport} (h : axis ∈ (exactDrift contract observation).axes) (hcompared : axis.compared = true) :
    axis.diff ≤ (exactDrift contract observation).score :=
  le_worst (List.mem_map_of_mem (List.mem_filter.mpr ⟨h, hcompared⟩))

lemma stringAxis_not_compared {axis : Axis} {x y : Option JsString} {graded : Bool}
    (h : (stringAxisWith (fun q => q) axis x y graded).compared = false) : (stringAxisWith (fun q => q) axis x y graded).diff = 0 := by
  cases x with
  | none => rfl
  | some a =>
    cases y with
    | none => rfl
    | some b =>
      rw [stringAxisWith] at h ⊢
      split_ifs at h ⊢
      rfl

lemma ratesAxis_not_compared {x y : Option (List (JsString × ℚ))} (h : (ratesAxisWith (fun q => q) x y).compared = false) :
    (ratesAxisWith (fun q => q) x y).diff = 0 := by
  cases x with
  | none => rfl
  | some a =>
    cases y with
    | none => rfl
    | some b =>
      rw [ratesAxisWith] at h ⊢
      split_ifs at h ⊢
      rfl

/-- The axes that a drift report is made of. -/
lemma forall_axes (contract : SurfaceContract) (observation : FreshObservation) {P : DriftAxisReport → Prop} :
    (∀ axis ∈ (exactDrift contract observation).axes, P axis) ↔
      P (stringAxisWith (fun q => q) .selector contract.selector observation.selector true) ∧
      P (stringAxisWith (fun q => q) .actionType contract.actionType observation.actionType false) ∧
      P (stringAxisWith (fun q => q) .riskHint contract.riskHint observation.riskHint false) ∧
      P (ratesAxisWith (fun q => q) contract.outcomeRates observation.outcomeRates) := by
  simp [exactDrift, computeDriftWith]

/-- An axis that is not compared shows no divergence. -/
lemma not_compared : ∀ axis ∈ (exactDrift contract observation).axes, axis.compared = false → axis.diff = 0 :=
  (forall_axes contract observation).mpr
    ⟨stringAxis_not_compared, stringAxis_not_compared, stringAxis_not_compared, ratesAxis_not_compared⟩

lemma axes_range : ∀ axis ∈ (exactDrift contract observation).axes, 0 ≤ axis.diff ∧ axis.diff ≤ 1 :=
  (forall_axes contract observation).mpr
    ⟨stringAxis_range _ _ _ _, stringAxis_range _ _ _ _, stringAxis_range _ _ _ _, ratesAxis_range _ _⟩

lemma score_nonneg (contract : SurfaceContract) (observation : FreshObservation) : 0 ≤ (exactDrift contract observation).score :=
  worst_nonneg _

lemma score_le {c : ℚ} (hc : 0 ≤ c) (h : ∀ axis ∈ (exactDrift contract observation).axes, axis.diff ≤ c) :
    (exactDrift contract observation).score ≤ c := by
  apply worst_le hc
  intro q hq
  obtain ⟨axis, haxis, rfl⟩ := List.mem_map.mp hq
  exact h axis (List.mem_filter.mp haxis).1

lemma score_zero : (exactDrift contract observation).score = 0 ↔ ∀ axis ∈ (exactDrift contract observation).axes, axis.diff = 0 := by
  constructor
  · intro h axis haxis
    cases hcompared : axis.compared with
    | false => exact not_compared axis haxis hcompared
    | true =>
      have hle := axis_le_score haxis hcompared
      rw [h] at hle
      exact le_antisymm hle (axes_range axis haxis).1
  · intro h
    exact le_antisymm (score_le (le_refl 0) fun axis haxis => (h axis haxis).le) (score_nonneg contract observation)

lemma flip_axis {axis : Axis} {x y : Option JsString} (h : Flipped x y) :
    stringAxisWith (fun q => q) axis x y false = ⟨axis, true, 1⟩ := by
  obtain ⟨a, rfl, b, rfl, ha, hb, hne⟩ := h
  exact stringAxis_flip ha hb hne axis

def selecting (selector : String) : SurfaceContract :=
  ⟨none, some (ofText selector), none, none, .undefined, none, none, none, none, none⟩

end Measure

end VivimOmega.Discovery

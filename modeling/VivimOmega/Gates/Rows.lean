import VivimOmega.Gates.Record
import VivimOmega.Library.Digits

/-! The rows of the index of decisions, and what is read back from a generated one. -/

namespace VivimOmega.Gates

open Library Library.Json

open Llm (newline)

open Nlcl (isWordUnit isDigit asciiUpper)

section Rows

structure IndexRow where
  n : ℕ
  status : JsString
  line : ℕ
  raw : JsString

def numberOf (digits : JsString) : ℕ := digits.foldl (fun n u => 10 * n + (u.toNat - 48)) 0

def numeral (n : ℕ) : JsString := (digitsOf 10 n).map fun d => UInt16.ofNat (48 + d)

/-- The number that `\|\s*\*\*D-(\d+)\*\*` finds at a place. -/
def rowAt (text : JsString) : Option ℕ :=
  let cell := text.tail.dropWhile Nlcl.isSpace
  let digits := (cell.drop 4).takeWhile isDigit
  if text.head? = some 124 ∧ ofText "**D-" <+: cell ∧ digits ≠ [] ∧ ofText "**" <+: (cell.drop 4).dropWhile isDigit then
    some (numberOf digits)
  else none

def rowNumber : JsString → Option ℕ
  | [] => none
  | u :: rest => (rowAt (u :: rest)).or (rowNumber rest)

def linesOf (text : JsString) : List JsString := text.splitOn newline

def rowOf (C : Casing) (place : JsString × ℕ) : Option IndexRow :=
  (rowNumber place.1).map fun n => ⟨n, (firstStatus none (C.toUpperCase place.1)).getD [], place.2 + 1, place.1⟩

def parseIndexRows (C : Casing) (text : JsString) : List IndexRow := (linesOf text).zipIdx.filterMap (rowOf C)

/-- The row up to its status cell. -/
def rowHead (n : ℕ) (m : IndexMeta) (file : JsString) : JsString :=
  ofText "| **D-" ++ numeral n ++ ofText "** | " ++ m.summary ++ ofText " Detail: docs/decisions/" ++ file

def generateIndexRow (n : ℕ) (status : JsString) (m : IndexMeta) (file : JsString) : JsString :=
  rowHead n m file ++ ofText " | **" ++ status ++ ofText "** · " ++ m.kind ++ ofText " | " ++ m.rationale ++ ofText " |"

lemma numeral_digits (n : ℕ) : ∀ u ∈ numeral n, isDigit u = true := by
  intro u hu
  obtain ⟨d, hd, rfl⟩ := List.mem_map.mp hu
  have hlt : d < 10 := by
    unfold digitsOf at hd
    split_ifs at hd
    · rw [List.mem_singleton.mp hd]
      decide
    · exact Nat.digits_lt_base (by decide) (List.mem_reverse.mp hd)
  interval_cases d <;> decide

lemma numeral_ne_nil (n : ℕ) : numeral n ≠ [] := by
  unfold numeral digitsOf
  split_ifs with h
  · simp
  · simp [Nat.digits_ne_nil_iff_ne_zero.mpr h]

lemma numberOf_numeral (n : ℕ) : numberOf (numeral n) = n := by
  have hfold : ∀ ds : List ℕ, (∀ d ∈ ds, d < 10) → ∀ k, (ds.map fun d => UInt16.ofNat (48 + d)).foldl
      (fun n u => 10 * n + (u.toNat - 48)) k = ds.foldl (fun n d => 10 * n + d) k := by
    intro ds
    induction ds with
    | nil => simp
    | cons d ds ih =>
      intro h k
      rw [List.forall_mem_cons] at h
      have hd : (UInt16.ofNat (48 + d)).toNat = 48 + d := by
        rw [UInt16.toNat_ofNat', Nat.mod_eq_of_lt (by omega)]
      rw [List.map_cons, List.foldl_cons, List.foldl_cons, hd, Nat.add_sub_cancel_left, ih h.2]
  unfold numberOf numeral digitsOf
  split_ifs with h
  · subst h
    rfl
  · rw [hfold _ fun d hd => Nat.digits_lt_base (by decide) (List.mem_reverse.mp hd), List.foldl_reverse]
    conv_rhs => rw [← Nat.ofDigits_digits 10 n, Nat.ofDigits_eq_foldr]
    congr 1
    funext d k
    simp [Nat.add_comm]

lemma rowNumber_generated (n : ℕ) (status : JsString) (m : IndexMeta) (file : JsString) :
    rowNumber (generateIndexRow n status m file) = some n := by
  have hmark : ofText "| **D-" = [124, 32, 42, 42, 68, 45] := by decide
  have hclose : ofText "** | " = [42, 42, 32, 124, 32] := by decide
  have htext : ∃ rest, generateIndexRow n status m file =
      124 :: 32 :: 42 :: 42 :: 68 :: 45 :: (numeral n ++ 42 :: 42 :: rest) := by
    simp only [generateIndexRow, rowHead, hmark, hclose, List.append_assoc, List.cons_append, List.nil_append]
    exact ⟨_, rfl⟩
  obtain ⟨rest, hrest⟩ := htext
  have hstar : isDigit 42 = false := by decide
  have hat : rowAt (generateIndexRow n status m file) = some n := by
    have htake : (numeral n ++ 42 :: 42 :: rest).takeWhile isDigit = numeral n := by
      rw [List.takeWhile_append_of_pos (numeral_digits n), List.takeWhile_cons_of_neg (by simp [hstar]), List.append_nil]
    have hdrop : (numeral n ++ 42 :: 42 :: rest).dropWhile isDigit = 42 :: 42 :: rest := by
      rw [List.dropWhile_append_of_pos (numeral_digits n), List.dropWhile_cons_of_neg (by simp [hstar])]
    have hcell : (32 :: 42 :: 42 :: 68 :: 45 :: (numeral n ++ 42 :: 42 :: rest)).dropWhile Nlcl.isSpace =
        42 :: 42 :: 68 :: 45 :: (numeral n ++ 42 :: 42 :: rest) := by
      rw [List.dropWhile_cons_of_pos (by decide), List.dropWhile_cons_of_neg (by decide)]
    have hprefix : ofText "**D-" = [42, 42, 68, 45] := by decide
    have hpair : ofText "**" = [42, 42] := by decide
    rw [hrest, rowAt]
    simp only [List.tail_cons, hcell, List.drop_succ_cons, List.drop_zero, htake, hdrop, hprefix, hpair]
    rw [if_pos ⟨rfl, by simp, numeral_ne_nil n, by simp⟩, numberOf_numeral]
  rw [hrest] at hat ⊢
  rw [rowNumber, hat]
  rfl

end Rows

section Status

variable {n : ℕ} {m : IndexMeta} {file status w text rest : JsString} {u : UInt16} {prev : Option UInt16}

lemma status_word (h : w ∈ legalStatuses) : w ≠ [] ∧ ∀ u ∈ w, isWordUnit u = true := by
  have hall : ∀ w ∈ legalStatuses, w ≠ [] ∧ w.all isWordUnit = true := by decide
  exact ⟨(hall w h).1, List.all_eq_true.mp (hall w h).2⟩

lemma prefix_iff_of_stop (hw : ∀ x ∈ w, isWordUnit x = true) (hu : isWordUnit u = false) :
    w <+: text ++ u :: rest ↔ w <+: text := by
  constructor
  · intro h
    rcases List.prefix_or_prefix_of_prefix h (List.prefix_append text (u :: rest)) with h' | ⟨t, rfl⟩
    · exact h'
    · cases t with
      | nil => simp
      | cons x t =>
        have ht := (List.prefix_append_right_inj text).mp h
        obtain rfl := (List.cons_prefix_cons.mp ht).1
        rw [hw x (List.mem_append_right _ List.mem_cons_self)] at hu
        cases hu
  · exact fun h => h.trans (List.prefix_append _ _)

/-- What is found at a place before the stop does not depend on what is after it. -/
lemma statusAt_stop (hu : isWordUnit u = false) (text : JsString) :
    statusAt prev (text ++ u :: rest) = statusAt prev text := by
  unfold statusAt
  split_ifs
  · rfl
  · apply List.find?_congr
    intro w hw
    have hstop : w <+: text ++ u :: rest ↔ w <+: text := prefix_iff_of_stop (status_word hw).2 hu
    simp only [hstop]
    by_cases hstarts : w <+: text
    · obtain ⟨t, rfl⟩ := hstarts
      rw [List.append_assoc, List.drop_left, List.drop_left]
      cases t with
      | nil => simp [hu]
      | cons x t => simp
    · simp [hstarts]

lemma statusAt_other (hu : isWordUnit u = false) : statusAt prev (u :: rest) = none := by
  rw [← List.nil_append (u :: rest), statusAt_stop hu]
  unfold statusAt
  split_ifs
  · rfl
  · decide

lemma firstStatus_stop (hu : isWordUnit u = false) (text : JsString) (prev : Option UInt16) :
    firstStatus prev (text ++ u :: rest) = (firstStatus prev text).or (firstStatus (some u) rest) := by
  induction text generalizing prev with
  | nil =>
    rw [List.nil_append, firstStatus.eq_2, statusAt_other hu]
    rfl
  | cons x text ih =>
    rw [List.cons_append, firstStatus.eq_2, firstStatus.eq_2, ih, ← List.cons_append, statusAt_stop hu, Option.or_assoc]

lemma firstStatus_here (hstatus : status ∈ legalStatuses) (hprev : prev.any isWordUnit = false)
    (hrest : rest.head?.any isWordUnit = false) : firstStatus prev (status ++ rest) = some status := by
  have hat : statusAt prev (status ++ rest) = some status := by
    have hapart : ∀ v ∈ legalStatuses, ∀ w ∈ legalStatuses, v <+: w → v = w := by decide
    rw [statusAt, hprev, if_neg (by simp)]
    have hself : (decide (status <+: status ++ rest) && !((status ++ rest).drop status.length).head?.any isWordUnit) = true := by
      simp [hrest]
    cases hfind : legalStatuses.find? fun w => decide (w <+: status ++ rest) &&
        !((status ++ rest).drop w.length).head?.any isWordUnit with
    | none => exact absurd hself (List.find?_eq_none.mp hfind status hstatus)
    | some v =>
      have hv := List.find?_some hfind
      simp only [Bool.and_eq_true, decide_eq_true_eq] at hv
      have hmem := List.mem_of_find?_eq_some hfind
      have hcompare := List.prefix_or_prefix_of_prefix hv.1 (List.prefix_append status rest)
      rcases hcompare with h | h
      · rw [hapart v hmem status hstatus h]
      · rw [hapart status hstatus v hmem h]
  obtain ⟨u, t, rfl⟩ := List.exists_cons_of_ne_nil (status_word hstatus).1
  rw [List.cons_append] at hat ⊢
  rw [firstStatus, hat]
  rfl

/-- The status cell decides unless a status word is before it. -/
lemma status_generated (C : Casing) (hstatus : status ∈ legalStatuses) : firstStatus none
    (C.toUpperCase (generateIndexRow n status m file)) = (firstStatus none (C.toUpperCase (rowHead n m file))).or (some status) := by
  obtain ⟨tail, htail⟩ : ∃ tail, generateIndexRow n status m file =
      rowHead n m file ++ 32 :: ([124, 32, 42, 42] ++ status ++ 42 :: 42 :: tail) := by
    have hopen : ofText " | **" = [32, 124, 32, 42, 42] := by decide
    have hclose : ofText "** · " = 42 :: 42 :: ofText " · " := by decide
    simp only [generateIndexRow, hopen, hclose, List.append_assoc, List.cons_append, List.nil_append]
    exact ⟨_, rfl⟩
  have hascii : ∀ w ∈ legalStatuses, (32 :: ([124, 32, 42, 42] ++ w)).map asciiUpper = 32 :: ([124, 32, 42, 42] ++ w) ∧
      (32 :: ([124, 32, 42, 42] ++ w)).all (· < 128) = true := by decide
  have hcell : C.toUpperCase (32 :: ([124, 32, 42, 42] ++ status)) = 32 :: ([124, 32, 42, 42] ++ status) := by
    rw [C.upper_ascii, (hascii status hstatus).1]
    simpa using (hascii status hstatus).2
  have hstar : C.toUpperCase (42 :: 42 :: tail) = 42 :: C.toUpperCase (42 :: tail) := by
    have happend := C.upper_append [42] tail 42 (by decide)
    rwa [C.upper_ascii [42] (by simp)] at happend
  have hupper : C.toUpperCase (32 :: ([124, 32, 42, 42] ++ status ++ 42 :: 42 :: tail)) =
      32 :: ([124, 32, 42, 42] ++ (status ++ 42 :: C.toUpperCase (42 :: tail))) := by
    have happend := C.upper_append (32 :: ([124, 32, 42, 42] ++ status)) (42 :: tail) 42 (by decide)
    rw [hcell, hstar] at happend
    simpa using happend
  have hspace : isWordUnit 32 = false := by decide
  rw [htail, C.upper_append (rowHead n m file) _ 32 (by decide), hupper, firstStatus_stop hspace]
  congr 1
  have hbar : isWordUnit 124 = false := by decide
  have hmark : isWordUnit 42 = false := by decide
  simp only [List.cons_append, List.nil_append, firstStatus.eq_2, statusAt_other hbar, statusAt_other hspace,
    statusAt_other hmark, Option.none_or]
  exact firstStatus_here hstatus (by decide) (by simp [hmark])

end Status

end VivimOmega.Gates

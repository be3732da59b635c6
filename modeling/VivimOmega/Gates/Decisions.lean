import VivimOmega.Gates.Rows
import VivimOmega.Library.Lines

/-! The index of the decisions, written again from the records. -/

namespace VivimOmega.Gates

open Library Library.Json

open Llm (newline)

section Regenerate

/-- A record's file by its number, as the directory lists it: the names that count are of one line. -/
structure Entry where
  n : ℕ
  file : JsString
  doc : RecordDoc
  numbered : doc.n = n
  file_line : newline ∉ file

def Entry.row (d : Entry) : JsString :=
  match d.doc.indexMeta with
  | none => []
  | some m => generateIndexRow d.n d.doc.status m d.file

def Entry.Generated (d : Entry) : Prop := generatedFrom ≤ d.n ∧ d.doc.indexMeta.isSome

instance instDecidableGenerated (d : Entry) : Decidable d.Generated := by
  unfold Entry.Generated
  infer_instance

def generatedEntries (docs : List Entry) : List Entry := (docs.filter (·.Generated)).insertionSort (·.n ≤ ·.n)

structure Regen where
  lines : List JsString
  lastRowLine : ℕ
  changed : ℕ
  appended : ℕ

def regenStep (rows : List IndexRow) (s : Regen) (d : Entry) : Regen :=
  match rows.find? (·.n = d.n) with
  | some existing =>
    if s.lines[existing.line - 1]? ≠ some d.row then
      { s with lines := s.lines.set (existing.line - 1) d.row, changed := s.changed + 1 }
    else s
  | none =>
    if 0 < s.lastRowLine then
      { s with
        lines := s.lines.take s.lastRowLine ++ d.row :: s.lines.drop s.lastRowLine
        lastRowLine := s.lastRowLine + 1
        appended := s.appended + 1 }
    else { s with lines := s.lines ++ [d.row], appended := s.appended + 1 }

structure Regenerated where
  text : JsString
  changed : ℕ
  appended : ℕ

def lastRowLine (rows : List IndexRow) : ℕ := rows.foldl (fun m r => max m r.line) 0

def regenStart (C : Casing) (indexText : JsString) : Regen :=
  ⟨linesOf indexText, lastRowLine (parseIndexRows C indexText), 0, 0⟩

def regenerateIndexRows (C : Casing) (indexText : JsString) (docs : List Entry) : Regenerated :=
  let s := (generatedEntries docs).foldl (regenStep (parseIndexRows C indexText)) (regenStart C indexText)
  if s.changed = 0 ∧ s.appended = 0 then ⟨indexText, 0, 0⟩ else ⟨[newline].intercalate s.lines, s.changed, s.appended⟩

variable {C : Casing} {indexText : JsString} {docs : List Entry} {d : Entry} {n k : ℕ} {lines : List JsString} {r : IndexRow}

lemma rows_numbers (k : ℕ) (lines : List JsString) :
    ((lines.zipIdx k).filterMap (rowOf C)).map IndexRow.n = lines.filterMap rowNumber := by
  induction lines generalizing k with
  | nil => rfl
  | cons line lines ih =>
    rw [List.zipIdx_cons, List.filterMap_cons, List.filterMap_cons]
    cases hrow : rowNumber line with
    | none => simp [rowOf, hrow, ih]
    | some n => simp [rowOf, hrow, ih]

/-- The first row of a number is at the first line of it. -/
lemma rows_find_some (h : ((lines.zipIdx k).filterMap (rowOf C)).find? (·.n = n) = some r) :
    ∃ before after, lines = before ++ r.raw :: after ∧ r.line = k + before.length + 1 ∧ rowNumber r.raw = some n ∧
      ∀ x ∈ before, rowNumber x ≠ some n := by
  induction lines generalizing k with
  | nil => cases h
  | cons line lines ih =>
    rw [List.zipIdx_cons, List.filterMap_cons] at h
    cases hrow : rowNumber line with
    | none =>
      simp only [rowOf, hrow, Option.map_none] at h
      obtain ⟨before, after, rfl, hline, hraw, hbefore⟩ := ih h
      refine ⟨line :: before, after, rfl, by simp only [hline, List.length_cons]; omega, hraw, ?_⟩
      exact List.forall_mem_cons.mpr ⟨by simp [hrow], hbefore⟩
    | some n' =>
      simp only [rowOf, hrow, Option.map_some, List.find?_cons] at h
      by_cases hn : n' = n
      · subst hn
        simp only [decide_true, Option.some.injEq] at h
        subst h
        exact ⟨[], lines, rfl, rfl, hrow, by simp⟩
      · simp only [hn, decide_false] at h
        obtain ⟨before, after, rfl, hline, hraw, hbefore⟩ := ih h
        refine ⟨line :: before, after, rfl, by simp only [hline, List.length_cons]; omega, hraw, ?_⟩
        exact List.forall_mem_cons.mpr ⟨by simp [hrow, hn], hbefore⟩

lemma rows_find_none (h : ((lines.zipIdx k).filterMap (rowOf C)).find? (·.n = n) = none) :
    ∀ x ∈ lines, rowNumber x ≠ some n := by
  intro x hx hn
  have hmem : n ∈ ((lines.zipIdx k).filterMap (rowOf C)).map IndexRow.n := by
    rw [rows_numbers]
    exact List.mem_filterMap.mpr ⟨x, hx, hn⟩
  obtain ⟨r, hr, rfl⟩ := List.mem_map.mp hmem
  simpa using List.find?_eq_none.mp h r hr

lemma rows_find_raw (lines : List JsString) (k n : ℕ) :
    (((lines.zipIdx k).filterMap (rowOf C)).find? (·.n = n)).map IndexRow.raw = lines.find? (rowNumber · = some n) := by
  cases h : ((lines.zipIdx k).filterMap (rowOf C)).find? (·.n = n) with
  | none =>
    refine (List.find?_eq_none.mpr fun x hx => ?_).symm
    simpa using rows_find_none h x hx
  | some r =>
    obtain ⟨before, after, rfl, -, hraw, hbefore⟩ := rows_find_some h
    rw [List.find?_append, List.find?_eq_none.mpr (fun x hx => by simpa using hbefore x hx), Option.none_or,
      List.find?_cons_of_pos (by simpa using hraw)]
    rfl

lemma le_lastRowLine (rows : List IndexRow) (m : ℕ) : m ≤ rows.foldl (fun m r => max m r.line) m ∧
    (∀ r ∈ rows, r.line ≤ rows.foldl (fun m r => max m r.line) m) ∧
      ∀ bound, m ≤ bound → (∀ r ∈ rows, r.line ≤ bound) → rows.foldl (fun m r => max m r.line) m ≤ bound := by
  induction rows generalizing m with
  | nil => simp
  | cons r rows ih =>
    obtain ⟨hm, hall, hbound⟩ := ih (max m r.line)
    rw [List.foldl_cons]
    refine ⟨by omega, List.forall_mem_cons.mpr ⟨by omega, hall⟩, fun bound hle h => ?_⟩
    rw [List.forall_mem_cons] at h
    exact hbound bound (by omega) h.2

/-- The lines up to the last row, and those after it. -/
lemma lastRowLine_split (lines : List JsString) :
    lastRowLine (lines.zipIdx.filterMap (rowOf C)) ≤ lines.length ∧
      ∀ x ∈ lines.drop (lastRowLine (lines.zipIdx.filterMap (rowOf C))), rowNumber x = none := by
  obtain ⟨-, hall, hbound⟩ := le_lastRowLine (lines.zipIdx.filterMap (rowOf C)) 0
  have hline : ∀ r ∈ lines.zipIdx.filterMap (rowOf C), ∃ i, lines[i]? = some r.raw ∧ r.line = i + 1 := by
    intro r hr
    obtain ⟨⟨x, i⟩, hx, hrow⟩ := List.mem_filterMap.mp hr
    obtain ⟨n, -, rfl⟩ := Option.map_eq_some_iff.mp hrow
    exact ⟨i, List.mem_zipIdx_iff_getElem?.mp hx, rfl⟩
  constructor
  · refine hbound _ (Nat.zero_le _) fun r hr => ?_
    obtain ⟨i, hi, heq⟩ := hline r hr
    have hlt := (List.getElem?_eq_some_iff.mp hi).1
    omega
  · intro x hx
    by_contra hrow
    obtain ⟨n, hn⟩ := Option.ne_none_iff_exists'.mp hrow
    obtain ⟨i, hi⟩ := List.mem_iff_getElem?.mp hx
    rw [List.getElem?_drop] at hi
    have hmem : (⟨n, (firstStatus none (C.toUpperCase x)).getD [], _ + 1, x⟩ : IndexRow) ∈ lines.zipIdx.filterMap (rowOf C) :=
      List.mem_filterMap.mpr ⟨(x, _), List.mem_zipIdx_iff_getElem?.mpr hi, by rw [rowOf, hn]; rfl⟩
    have hle := hall _ hmem
    simp only [lastRowLine] at hle
    omega

end Regenerate

section Refresh

variable {C : Casing} {indexText : JsString} {docs ds : List Entry} {d : Entry} {s : Regen}
variable {before after kept added lines : List JsString}

/-- A line that is not a row of the generated era. -/
def IsHand (line : JsString) : Prop := ∀ n ∈ rowNumber line, n < generatedFrom

instance instDecidableIsHand (line : JsString) : Decidable (IsHand line) :=
  decidable_of_iff ((rowNumber line).all (· < generatedFrom)) (by cases h : rowNumber line <;> simp [IsHand, h])

def Missing (lines : List JsString) (d : Entry) : Prop := ∀ x ∈ lines, rowNumber x ≠ some d.n

instance instDecidableMissing (lines : List JsString) (d : Entry) : Decidable (Missing lines d) := by
  unfold Missing
  infer_instance

lemma row_number (hd : d.Generated) : rowNumber d.row = some d.n := by
  obtain ⟨m, hm⟩ := Option.isSome_iff_exists.mp hd.2
  rw [Entry.row, hm]
  exact rowNumber_generated ..

lemma row_not_hand (hd : d.Generated) : ¬ IsHand d.row := by
  intro h
  have hlt := h d.n (row_number hd)
  have hge := hd.1
  omega

lemma not_hand_of_number (hd : d.Generated) {x : JsString} (hx : rowNumber x = some d.n) : ¬ IsHand x := by
  intro h
  have hlt := h d.n hx
  have hge := hd.1
  omega

/-- The lines up to the last row, with the first row of each of the records written again. -/
structure Refreshed (ds : List Entry) (before kept : List JsString) : Prop where
  numbers : kept.map rowNumber = before.map rowNumber
  hand : kept.filter (IsHand ·) = before.filter (IsHand ·)
  first : ∀ d ∈ ds, ¬ Missing before d → kept.find? (rowNumber · = some d.n) = some d.row

lemma Refreshed.missing_iff (h : Refreshed ds before kept) : Missing kept d ↔ Missing before d := by
  have hmem : ∀ ls : List JsString, Missing ls d ↔ some d.n ∉ ls.map rowNumber := by
    intro ls
    simp [Missing]
  rw [hmem, hmem, h.numbers]

lemma Refreshed.skip (h : Refreshed ds before kept) (hd : Missing before d) : Refreshed (ds ++ [d]) before kept := by
  refine ⟨h.numbers, h.hand, fun d' hd' hpresent => ?_⟩
  rcases List.mem_append.mp hd' with hd' | hd'
  · exact h.first d' hd' hpresent
  · rw [List.mem_singleton.mp hd'] at hpresent
    exact absurd hd hpresent

lemma Refreshed.set {front back : List JsString} {y : JsString} (h : Refreshed ds (front ++ y :: back) kept) (hd : d.Generated)
    (hy : rowNumber y = some d.n) (hfront : ∀ x ∈ front, rowNumber x ≠ some d.n) (hnew : ∀ d' ∈ ds, d'.n ≠ d.n) :
    Refreshed (ds ++ [d]) (front ++ y :: back) (kept.set front.length d.row) := by
  obtain ⟨hnumbers, hhand, hfirst⟩ := h
  have hsplit := hnumbers
  rw [List.map_append, List.map_cons] at hsplit
  obtain ⟨front', rest', rfl, hfront', hrest'⟩ := List.map_eq_append_iff.mp hsplit
  obtain ⟨y', back', rfl, hy', hback'⟩ := List.map_eq_cons_iff.mp hrest'
  have hlength : front'.length = front.length := by rw [← List.length_map (f := rowNumber), hfront', List.length_map]
  rw [← hlength, List.set_append_right _ _ (le_refl _), Nat.sub_self, List.set_cons_zero]
  rw [hy] at hy'
  have hclear : ∀ x ∈ front', rowNumber x ≠ some d.n := by
    intro x hx hn
    have hmem := List.mem_map_of_mem (f := rowNumber) hx
    rw [hfront', hn] at hmem
    obtain ⟨z, hz, heq⟩ := List.mem_map.mp hmem
    exact hfront z hz heq
  refine ⟨?_, ?_, ?_⟩
  · rw [← hnumbers, List.map_append, List.map_append, List.map_cons, List.map_cons, row_number hd, hy']
  · rw [← hhand, List.filter_append, List.filter_append, List.filter_cons_of_neg (by simpa using row_not_hand hd),
      List.filter_cons_of_neg (by simpa using not_hand_of_number hd hy')]
  · intro d' hd' hpresent
    rcases List.mem_append.mp hd' with hd' | hd'
    · have hother := hfirst d' hd' hpresent
      have hne := (hnew d' hd').symm
      rw [List.find?_append, List.find?_cons_of_neg (by simp [hy', hne])] at hother
      rw [List.find?_append, List.find?_cons_of_neg (by simp [row_number hd, hne])]
      exact hother
    · rw [List.mem_singleton.mp hd', List.find?_append,
        List.find?_eq_none.mpr (fun x hx => by simpa using hclear x hx), Option.none_or,
        List.find?_cons_of_pos (by simp [row_number hd])]

/-- The lines of a run: what is kept, the rows that are added after it, and what comes after them. -/
structure Progress (before after : List JsString) (ds : List Entry) (s : Regen) (kept added : List JsString) : Prop where
  lines : s.lines = kept ++ (added ++ after)
  refreshed : Refreshed ds before kept
  additions : added = (ds.filter (Missing before ·)).map Entry.row
  place : 0 < before.length ∧ s.lastRowLine = kept.length + added.length ∨ s.lastRowLine = 0 ∧ after = []
  idle : s.changed = 0 → s.appended = 0 → s.lines = before ++ after

lemma progress_step (h : Progress before after ds s kept added) (hafter : ∀ x ∈ after, rowNumber x = none)
    (hd : d.Generated) (hnew : ∀ d' ∈ ds, d'.n ≠ d.n) :
    ∃ kept' added', Progress before after (ds ++ [d])
      (regenStep ((before ++ after).zipIdx.filterMap (rowOf C)) s d) kept' added' := by
  obtain ⟨hlines, hrefreshed, hadded, hplace, hidle⟩ := h
  have hlength : kept.length = before.length := by
    rw [← List.length_map (f := rowNumber), hrefreshed.numbers, List.length_map]
  unfold regenStep
  cases hfind : ((before ++ after).zipIdx.filterMap (rowOf C)).find? (·.n = d.n) with
  | none =>
    have hmissing : Missing before d := fun x hx => rows_find_none hfind x (List.mem_append_left _ hx)
    have hadded' : added ++ [d.row] = ((ds ++ [d]).filter (Missing before ·)).map Entry.row := by
      rw [List.filter_append, List.map_append, ← hadded, List.filter_cons_of_pos (by simpa using hmissing)]
      rfl
    refine ⟨kept, added ++ [d.row], ?_⟩
    rcases hplace with ⟨hlast, hplace⟩ | ⟨hplace, hnil⟩
    · rw [if_pos (by omega)]
      refine ⟨?_, hrefreshed.skip hmissing, hadded', .inl ⟨hlast, ?_⟩, ?_⟩
      · have hcut : s.lines = (kept ++ added) ++ after := by rw [hlines, List.append_assoc]
        have hwhere : s.lastRowLine = (kept ++ added).length := by rw [hplace, List.length_append]
        simp only [hcut, hwhere]
        rw [List.take_left, List.drop_left]
        simp
      · simp only [hplace, List.length_append, List.length_singleton, Nat.add_assoc]
      · intro _ hzero
        cases hzero
    · rw [if_neg (by omega)]
      refine ⟨?_, hrefreshed.skip hmissing, hadded', .inr ⟨hplace, hnil⟩, ?_⟩
      · simp only [hlines, hnil, List.append_nil, List.append_assoc]
      · intro _ hzero
        cases hzero
  | some r =>
    obtain ⟨front, back, hsplit, hline, hraw, hfront⟩ := rows_find_some hfind
    -- a row is not among the lines after the last one
    obtain ⟨back', rfl⟩ : ∃ back', before = front ++ r.raw :: back' := by
      rcases List.append_eq_append_iff.mp hsplit with ⟨t, hfront', ht⟩ | ⟨t, hbefore, ht⟩
      · have hmem : r.raw ∈ after := ht ▸ List.mem_append_right _ List.mem_cons_self
        rw [hafter _ hmem] at hraw
        cases hraw
      · cases t with
        | nil =>
          have hmem : r.raw ∈ after := by
            rw [List.nil_append] at ht
            exact ht ▸ List.mem_cons_self
          rw [hafter _ hmem] at hraw
          cases hraw
        | cons x t =>
          rw [List.cons_append, List.cons.injEq] at ht
          exact ⟨t, by rw [hbefore, ht.1]⟩
    have hpresent : ¬ Missing (front ++ r.raw :: back') d := fun h =>
      h r.raw (List.mem_append_right _ List.mem_cons_self) hraw
    have hindex : r.line - 1 = front.length := by omega
    have hlt : front.length < kept.length := by
      rw [hlength, List.length_append, List.length_cons]
      omega
    have hset : s.lines.set (r.line - 1) d.row = kept.set front.length d.row ++ (added ++ after) := by
      rw [hlines, hindex, List.set_append_left _ _ hlt]
    have hadded' : added = ((ds ++ [d]).filter (Missing (front ++ r.raw :: back') ·)).map Entry.row := by
      rw [List.filter_append, List.map_append, ← hadded, List.filter_cons_of_neg (by simpa using hpresent)]
      simp
    have hrefreshed' := hrefreshed.set hd hraw hfront hnew
    have hplace' : 0 < (front ++ r.raw :: back').length ∧ s.lastRowLine = (kept.set front.length d.row).length + added.length ∨
        s.lastRowLine = 0 ∧ after = [] := by
      rw [List.length_set]
      exact hplace
    refine ⟨kept.set front.length d.row, added, ?_⟩
    simp only
    split_ifs with hsame
    · exact ⟨hset, hrefreshed', hadded', hplace', fun hzero => by cases hzero⟩
    · rw [ne_eq, not_not] at hsame
      have hnoop : s.lines.set (r.line - 1) d.row = s.lines := by
        obtain ⟨hbound, heq⟩ := List.getElem?_eq_some_iff.mp hsame
        rw [← heq, List.set_getElem_self]
      exact ⟨hnoop.symm.trans hset, hrefreshed', hadded', hplace', hidle⟩

end Refresh

section Index

variable {C : Casing} {indexText : JsString} {docs : List Entry} {d : Entry} {lines : List JsString} {r : IndexRow}
variable {shaExists : JsString → Bool}

def indexNumbers (C : Casing) (text : JsString) : List ℕ := (parseIndexRows C text).map IndexRow.n

/-- The records of the generated era that no row of the index is about, by their numbers. -/
def missingEntries (C : Casing) (indexText : JsString) (docs : List Entry) : List Entry :=
  (generatedEntries docs).filter (·.n ∉ indexNumbers C indexText)

/-- The text before the status cell names no other status. -/
def Unmistakable (C : Casing) (d : Entry) : Prop :=
  ∀ m ∈ d.doc.indexMeta, ∀ w ∈ firstStatus none (C.toUpperCase (rowHead d.n m d.file)), w = d.doc.status

/-- What regenerating makes of an index. -/
structure IndexLaw (C : Casing) (indexText : JsString) (docs : List Entry) (out : Regenerated) : Prop where
  hand : (linesOf out.text).filter (IsHand ·) = (linesOf indexText).filter (IsHand ·)
  numbers : indexNumbers C out.text = indexNumbers C indexText ++ (missingEntries C indexText docs).map Entry.n
  missing : ((missingEntries C indexText docs).map Entry.n).Pairwise (· < ·)
  ascending : (indexNumbers C indexText).Pairwise (· < ·) →
    ((indexNumbers C out.text).Pairwise (· < ·) ↔
      ∀ n ∈ indexNumbers C indexText, ∀ d ∈ missingEntries C indexText docs, n < d.n)
  row : ∀ d ∈ docs, generatedFrom ≤ d.n → (indexNumbers C indexText).count d.n ≤ 1 →
    ∃ r, (parseIndexRows C out.text).filter (·.n = d.n) = [r] ∧ r.raw = d.row ∧ (Unmistakable C d → r.status = d.doc.status)
  again : regenerateIndexRows C out.text docs = ⟨out.text, 0, 0⟩

lemma mem_generatedEntries : d ∈ generatedEntries docs ↔ d ∈ docs ∧ d.Generated := by
  rw [generatedEntries, List.mem_insertionSort, List.mem_filter, decide_eq_true_eq]

lemma generatedEntries_sorted (h : (docs.map Entry.n).Nodup) : ((generatedEntries docs).map Entry.n).Pairwise (· < ·) := by
  have hle : Std.Total fun a b : Entry => a.n ≤ b.n := ⟨fun a b => le_total a.n b.n⟩
  have htrans : IsTrans Entry fun a b => a.n ≤ b.n := ⟨fun _ _ _ => le_trans⟩
  have hperm : ((generatedEntries docs).map Entry.n).Perm ((docs.filter (·.Generated)).map Entry.n) :=
    (List.perm_insertionSort _ _).map _
  have hnodup : ((generatedEntries docs).map Entry.n).Nodup :=
    hperm.nodup_iff.mpr (h.sublist (List.filter_sublist.map Entry.n))
  have hsorted : ((generatedEntries docs).map Entry.n).Pairwise (· ≤ ·) :=
    List.pairwise_map.mpr (List.pairwise_insertionSort (fun a b : Entry => a.n ≤ b.n) _)
  exact (hsorted.and hnodup).imp fun hboth => lt_of_le_of_ne hboth.1 hboth.2

lemma row_line (hvalid : validateRecord shaExists d.doc = []) (hd : d.Generated) : newline ∉ d.row := by
  obtain ⟨m, hm, hindexed⟩ := indexed_of_valid hvalid (d.numbered.symm ▸ hd.1)
  have hstatus : ∀ w ∈ legalStatuses, newline ∉ w := by decide
  have hkind : ∀ w ∈ legalClasses, newline ∉ w := by decide
  have hnumeral : newline ∉ numeral d.n := fun hmem => by
    have hdigit := numeral_digits d.n newline hmem
    cases hdigit
  have hopen : newline ∉ ofText "| **D-" ∧ newline ∉ ofText "** | " ∧ newline ∉ ofText " Detail: docs/decisions/" := by decide
  have hclose : newline ∉ ofText " | **" ∧ newline ∉ ofText "** · " ∧ newline ∉ ofText " | " ∧ newline ∉ ofText " |" := by decide
  rw [Entry.row, hm]
  simp only [generateIndexRow, rowHead, List.mem_append, hopen, hnumeral, m.summary_line, d.file_line, hclose,
    hstatus _ hindexed.status, hkind _ hindexed.kind, m.rationale_line, or_self, not_false_eq_true]

lemma linesOf_lines (text : JsString) : ∀ line ∈ linesOf text, newline ∉ line :=
  splitOn_free text

lemma indexNumbers_eq (text : JsString) : indexNumbers C text = (linesOf text).filterMap rowNumber :=
  rows_numbers 0 _

lemma missing_iff : Missing (linesOf indexText) d ↔ d.n ∉ indexNumbers C indexText := by
  rw [indexNumbers_eq]
  simp [Missing]

/-- The lines are those of the index, and rows of the records. -/
lemma mem_regenStep {rows : List IndexRow} {s : Regen} {x : JsString} (h : x ∈ (regenStep rows s d).lines) :
    x ∈ s.lines ∨ x = d.row := by
  unfold regenStep at h
  split at h
  · split_ifs at h
    · exact List.mem_or_eq_of_mem_set h
    · exact .inl h
  · split_ifs at h
    · rcases List.mem_append.mp h with h | h
      · exact .inl (List.mem_of_mem_take h)
      · exact (List.mem_cons.mp h).symm.imp_left List.mem_of_mem_drop
    · exact (List.mem_append.mp h).imp_right List.mem_singleton.mp

lemma mem_foldl_regen {rows : List IndexRow} {s : Regen} {x : JsString} {ds : List Entry}
    (h : x ∈ (ds.foldl (regenStep rows) s).lines) : x ∈ s.lines ∨ ∃ d ∈ ds, x = d.row := by
  induction ds generalizing s with
  | nil => exact .inl h
  | cons d ds ih =>
    rcases ih h with h | ⟨d', hd', rfl⟩
    · rcases mem_regenStep h with h | rfl
      · exact .inl h
      · exact .inr ⟨d, List.mem_cons_self, rfl⟩
    · exact .inr ⟨d', List.mem_cons_of_mem _ hd', rfl⟩

lemma progress_foldl {before after : List JsString} {s : Regen} {ds : List Entry} (hafter : ∀ x ∈ after, rowNumber x = none)
    (hds : ∀ d ∈ ds, d.Generated) (hnodup : (ds.map Entry.n).Nodup) (hstart : Progress before after [] s before []) :
    ∃ kept added, Progress before after ds (ds.foldl (regenStep ((before ++ after).zipIdx.filterMap (rowOf C))) s) kept added := by
  induction ds using List.reverseRecOn with
  | nil => exact ⟨before, [], hstart⟩
  | append_singleton ds d ih =>
    rw [List.forall_mem_append, List.forall_mem_singleton] at hds
    rw [List.map_append, List.nodup_append] at hnodup
    obtain ⟨kept, added, h⟩ := ih hds.1 hnodup.1
    rw [List.foldl_append]
    refine progress_step h hafter hds.2 fun d' hd' => ?_
    exact hnodup.2.2 d'.n (List.mem_map_of_mem hd') d.n (by simp)

/-- The index is cut after its last row, or at its end where it has none. -/
lemma progress_start (C : Casing) (indexText : JsString) : ∃ before after, before ++ after = linesOf indexText ∧
    (∀ x ∈ after, rowNumber x = none) ∧ Progress before after [] (regenStart C indexText) before [] := by
  obtain ⟨hle, hafter⟩ := lastRowLine_split (C := C) (linesOf indexText)
  have hempty : ∀ before : List JsString, Refreshed [] before before := fun _ => ⟨rfl, rfl, by simp⟩
  by_cases hlast : lastRowLine (parseIndexRows C indexText) = 0
  · refine ⟨linesOf indexText, [], List.append_nil _, by simp, ?_, hempty _, rfl, .inr ⟨hlast, rfl⟩, ?_⟩
    · simp [regenStart]
    · simp [regenStart]
  · refine ⟨_, _, List.take_append_drop (lastRowLine (parseIndexRows C indexText)) _, hafter, ?_, hempty _, rfl, .inl ?_, ?_⟩
    · simp [regenStart]
    · have hlength := List.length_take_of_le hle
      rw [List.length_nil, Nat.add_zero]
      exact ⟨lt_of_lt_of_eq (Nat.pos_of_ne_zero hlast) hlength.symm, hlength.symm⟩
    · simp [regenStart]

section Assembly

variable {before after kept added : List JsString} {s : Regen}

lemma find_row (h : Progress before after (generatedEntries docs) s kept added) (hnodup : (docs.map Entry.n).Nodup)
    (hd : d ∈ generatedEntries docs) : s.lines.find? (rowNumber · = some d.n) = some d.row := by
  rw [h.lines, List.find?_append]
  by_cases hmissing : Missing before d
  · have hkept : kept.find? (rowNumber · = some d.n) = none :=
      List.find?_eq_none.mpr fun x hx => by simpa using h.refreshed.missing_iff.mpr hmissing x hx
    have hmem : d.row ∈ added := by
      rw [h.additions]
      exact List.mem_map_of_mem (List.mem_filter.mpr ⟨hd, by simpa using hmissing⟩)
    rw [hkept, Option.none_or, List.find?_append]
    cases hfind : added.find? (rowNumber · = some d.n) with
    | none =>
      have hno := List.find?_eq_none.mp hfind d.row hmem
      simp [row_number (mem_generatedEntries.mp hd).2] at hno
    | some x =>
      have hx := List.mem_of_find?_eq_some hfind
      rw [h.additions] at hx
      obtain ⟨d', hd', rfl⟩ := List.mem_map.mp hx
      have hd' := List.mem_of_mem_filter hd'
      have hnumber : rowNumber d'.row = some d.n := by simpa using List.find?_some hfind
      rw [row_number (mem_generatedEntries.mp hd').2, Option.some.injEq] at hnumber
      have hsame := List.inj_on_of_nodup_map hnodup (mem_generatedEntries.mp hd').1 (mem_generatedEntries.mp hd).1 hnumber
      rw [hsame]
      rfl
  · rw [h.refreshed.first d hd hmissing]
    rfl

lemma lines_of_out (h : Progress before after (generatedEntries docs) s kept added) (hsplit : before ++ after = linesOf indexText)
    (hrun : s = (generatedEntries docs).foldl (regenStep (parseIndexRows C indexText)) (regenStart C indexText))
    (hlines : ∀ d ∈ generatedEntries docs, newline ∉ d.row) :
    linesOf (regenerateIndexRows C indexText docs).text = s.lines := by
  rw [regenerateIndexRows]
  simp only [← hrun]
  split_ifs with hidle
  · rw [h.idle hidle.1 hidle.2, hsplit]
  · refine List.splitOn_intercalate newline (fun x hx => ?_) ?_
    · rw [hrun] at hx
      rcases mem_foldl_regen hx with hx | ⟨d, hd, rfl⟩
      · exact linesOf_lines indexText x hx
      · exact hlines d hd
    · intro hnil
      have hlength := congrArg List.length h.refreshed.numbers
      rw [List.length_map, List.length_map] at hlength
      rw [h.lines, List.append_eq_nil_iff, List.append_eq_nil_iff] at hnil
      rw [hnil.1, List.length_nil] at hlength
      have hbefore := List.eq_nil_of_length_eq_zero hlength.symm
      rw [hbefore, hnil.2.2] at hsplit
      exact List.splitOn_ne_nil _ _ hsplit.symm

lemma missing_before (hsplit : before ++ after = linesOf indexText) (hafter : ∀ x ∈ after, rowNumber x = none) :
    Missing before d ↔ d.n ∉ indexNumbers C indexText := by
  rw [← missing_iff, ← hsplit]
  constructor
  · intro h x hx
    rcases List.mem_append.mp hx with hx | hx
    · exact h x hx
    · simp [hafter x hx]
  · exact fun h x hx => h x (List.mem_append_left _ hx)

lemma numbers_of_out (h : Progress before after (generatedEntries docs) s kept added) (hsplit : before ++ after = linesOf indexText)
    (hafter : ∀ x ∈ after, rowNumber x = none) :
    s.lines.filterMap rowNumber = indexNumbers C indexText ++ (missingEntries C indexText docs).map Entry.n := by
  have hnone : after.filterMap rowNumber = [] := List.filterMap_eq_nil_iff.mpr hafter
  have hkept : kept.filterMap rowNumber = before.filterMap rowNumber := by
    have hmap := congrArg (List.filterMap id) h.refreshed.numbers
    rwa [List.filterMap_map, List.filterMap_map] at hmap
  have hadded : added.filterMap rowNumber = (missingEntries C indexText docs).map Entry.n := by
    have hsame : (generatedEntries docs).filter (Missing before ·) = missingEntries C indexText docs := by
      refine List.filter_congr fun d _ => decide_eq_decide.mpr (missing_before hsplit hafter)
    rw [h.additions, hsame, List.filterMap_map, ← List.filterMap_eq_map]
    refine List.filterMap_congr fun d hd => ?_
    exact row_number (mem_generatedEntries.mp (List.mem_of_mem_filter hd)).2
  rw [h.lines, List.filterMap_append, List.filterMap_append, hkept, hadded, hnone, List.append_nil, indexNumbers_eq,
    ← hsplit, List.filterMap_append, hnone, List.append_nil]

lemma hand_of_out (h : Progress before after (generatedEntries docs) s kept added) :
    s.lines.filter (IsHand ·) = (before ++ after).filter (IsHand ·) := by
  have hadded : added.filter (IsHand ·) = [] := by
    refine List.filter_eq_nil_iff.mpr fun x hx => ?_
    rw [h.additions] at hx
    obtain ⟨d, hd, rfl⟩ := List.mem_map.mp hx
    simpa using row_not_hand (mem_generatedEntries.mp (List.mem_of_mem_filter hd)).2
  rw [h.lines, List.filter_append, List.filter_append, hadded, List.nil_append, h.refreshed.hand, List.filter_append]

end Assembly

lemma status_of_row (h : r ∈ parseIndexRows C indexText) :
    r.status = (firstStatus none (C.toUpperCase r.raw)).getD [] := by
  obtain ⟨place, -, hrow⟩ := List.mem_filterMap.mp h
  obtain ⟨n, -, rfl⟩ := Option.map_eq_some_iff.mp hrow
  rfl

lemma status_of_own (hvalid : validateRecord shaExists d.doc = []) (hd : d.Generated) (hclear : Unmistakable C d) :
    firstStatus none (C.toUpperCase d.row) = some d.doc.status := by
  obtain ⟨m, hm, hindexed⟩ := indexed_of_valid hvalid (d.numbered.symm ▸ hd.1)
  rw [Entry.row, hm]
  simp only
  rw [status_generated C hindexed.status]
  cases hfirst : firstStatus none (C.toUpperCase (rowHead d.n m d.file)) with
  | none => rfl
  | some w => rw [hclear m hm w hfirst, Option.some_or]

/-- A step on lines that have the row of the record already. -/
lemma regenStep_idle {s : Regen} (hlines : s.lines = linesOf indexText)
    (h : (linesOf indexText).find? (rowNumber · = some d.n) = some d.row) : regenStep (parseIndexRows C indexText) s d = s := by
  have hraw := rows_find_raw (C := C) (linesOf indexText) 0 d.n
  rw [h] at hraw
  obtain ⟨r, hfind, hr⟩ := Option.map_eq_some_iff.mp hraw
  obtain ⟨front, back, hsplit, hline, -, -⟩ := rows_find_some hfind
  have hindex : r.line - 1 = front.length := by omega
  have hhere : s.lines[r.line - 1]? = some d.row := by
    rw [hlines, hsplit, hindex, List.getElem?_append_right (le_refl _), Nat.sub_self, ← hr]
    rfl
  rw [regenStep, parseIndexRows, hfind]
  simp only
  rw [if_neg (not_not.mpr hhere)]

lemma regenerate_idle (h : ∀ d ∈ generatedEntries docs, (linesOf indexText).find? (rowNumber · = some d.n) = some d.row) :
    regenerateIndexRows C indexText docs = ⟨indexText, 0, 0⟩ := by
  have hfold : ∀ ds : List Entry, (∀ d ∈ ds, (linesOf indexText).find? (rowNumber · = some d.n) = some d.row) →
      ds.foldl (regenStep (parseIndexRows C indexText)) (regenStart C indexText) = regenStart C indexText := by
    intro ds
    induction ds with
    | nil => exact fun _ => rfl
    | cons d ds ih =>
      intro hds
      rw [List.forall_mem_cons] at hds
      rw [List.foldl_cons, regenStep_idle rfl hds.1, ih hds.2]
  rw [regenerateIndexRows, hfold _ h]
  rfl

theorem regenerate_index (C : Casing) (shaExists : JsString → Bool) (indexText : JsString) (hdistinct : (docs.map Entry.n).Nodup)
    (hvalid : ∀ d ∈ docs, validateRecord shaExists d.doc = []) :
    IndexLaw C indexText docs (regenerateIndexRows C indexText docs) := by
  obtain ⟨before, after, hsplit, hafter, hstart⟩ := progress_start C indexText
  have hsorted := generatedEntries_sorted hdistinct
  have hgenerated : ∀ d ∈ generatedEntries docs, d.Generated := fun d hd => (mem_generatedEntries.mp hd).2
  obtain ⟨kept, added, hprogress⟩ := progress_foldl (C := C) hafter hgenerated (hsorted.imp fun h => ne_of_lt h) hstart
  rw [hsplit] at hprogress
  have hrows : ∀ d ∈ generatedEntries docs, newline ∉ d.row := fun d hd =>
    row_line (hvalid d (mem_generatedEntries.mp hd).1) (hgenerated d hd)
  have hlines := lines_of_out hprogress hsplit rfl hrows
  have hnumbers : indexNumbers C (regenerateIndexRows C indexText docs).text =
      indexNumbers C indexText ++ (missingEntries C indexText docs).map Entry.n := by
    rw [indexNumbers_eq, hlines, numbers_of_out hprogress hsplit hafter]
  have hmissing : ((missingEntries C indexText docs).map Entry.n).Pairwise (· < ·) :=
    hsorted.sublist (List.filter_sublist.map Entry.n)
  have hfind : ∀ d ∈ generatedEntries docs, (linesOf (regenerateIndexRows C indexText docs).text).find?
      (rowNumber · = some d.n) = some d.row := by
    intro d hd
    rw [hlines]
    exact find_row hprogress hdistinct hd
  refine ⟨?_, hnumbers, hmissing, ?_, ?_, regenerate_idle hfind⟩
  · rw [hlines, hand_of_out hprogress, hsplit]
  · intro hascending
    rw [hnumbers, List.pairwise_append]
    simp only [hascending, hmissing, true_and, List.forall_mem_map]
  · intro d hd hera hcount
    have hmeta := indexed_of_valid (hvalid d hd) (d.numbered.symm ▸ hera)
    have hd' : d ∈ generatedEntries docs := by
      obtain ⟨m, hm, -⟩ := hmeta
      exact mem_generatedEntries.mpr ⟨hd, hera, by rw [hm]; rfl⟩
    have hone : (indexNumbers C (regenerateIndexRows C indexText docs).text).count d.n = 1 := by
      rw [hnumbers, List.count_append]
      by_cases hin : d.n ∈ indexNumbers C indexText
      · have hnot : d.n ∉ (missingEntries C indexText docs).map Entry.n := by
          intro hmem
          obtain ⟨d', hd'', heq⟩ := List.mem_map.mp hmem
          have hout := (List.mem_filter.mp hd'').2
          simp [heq, hin] at hout
        have hpos := List.count_pos_iff.mpr hin
        rw [List.count_eq_zero_of_not_mem hnot]
        omega
      · have hmem : d.n ∈ (missingEntries C indexText docs).map Entry.n :=
          List.mem_map_of_mem (List.mem_filter.mpr ⟨hd', by simpa using hin⟩)
        have hnodup : ((missingEntries C indexText docs).map Entry.n).Nodup := hmissing.imp fun h => ne_of_lt h
        rw [List.count_eq_zero_of_not_mem hin, List.count_eq_one_of_mem hnodup hmem]
    obtain ⟨r, hr, hraw⟩ := Option.map_eq_some_iff.mp ((rows_find_raw (C := C) _ 0 d.n).trans (hfind d hd'))
    have hlength : ((parseIndexRows C (regenerateIndexRows C indexText docs).text).filter (·.n = d.n)).length = 1 := by
      rw [← hone, indexNumbers, List.count, List.countP_map, List.countP_eq_length_filter]
      congr 1
    have hmem : r ∈ (parseIndexRows C (regenerateIndexRows C indexText docs).text).filter (·.n = d.n) :=
      List.mem_filter.mpr ⟨List.mem_of_find?_eq_some hr, List.find?_some (p := fun r : IndexRow => decide (r.n = d.n)) hr⟩
    obtain ⟨r', hr'⟩ := List.length_eq_one_iff.mp hlength
    rw [hr', List.mem_singleton] at hmem
    subst hmem
    refine ⟨r, hr', hraw, fun hclear => ?_⟩
    rw [status_of_row (List.mem_of_find?_eq_some hr), hraw, status_of_own (hvalid d hd) (hgenerated d hd') hclear,
      Option.getD_some]

def plainMeta : IndexMeta := ⟨ofText "s", ofText "r", ofText "evidence", by decide, by decide⟩

def plainRecord (n : ℕ) : RecordDoc :=
  ⟨n, ofText "f", requiredSections, ofText "PROPOSED", ofText "|", ofText "a", ofText "e", [], some plainMeta, none⟩

def plainEntry (n : ℕ) : Entry := ⟨n, ofText "f", plainRecord n, rfl, by decide⟩

theorem regenerate_index_one : IndexLaw asciiCasing [] [plainEntry 415]
    (regenerateIndexRows asciiCasing [] [plainEntry 415]) :=
  regenerate_index asciiCasing (fun _ => true) [] (by decide) (by decide)

def gapIndex : JsString := ofText "|**D-414**\n|**D-416**"

/-- A record in a gap of the rows gets its row after the last one. -/
theorem gap_not_filled : validateRecord (fun _ => true) (plainRecord 415) = [] ∧
    indexNumbers asciiCasing gapIndex = [414, 416] ∧
    indexNumbers asciiCasing (regenerateIndexRows asciiCasing gapIndex [plainEntry 415]).text = [414, 416, 415] := by
  decide

end Index

end VivimOmega.Gates

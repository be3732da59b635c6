import VivimOmega.Library.Digits
import VivimOmega.Law.Policy
import VivimOmega.Vault.Port

/-! The rows of the law's journal: their ids are ordered as the events that they narrate. -/

namespace VivimOmega.Law

open Library Library.Json

section Ids

def digit36 (d : ℕ) : Char := if d < 10 then Char.ofNat (0x30 + d) else Char.ofNat (0x57 + d)

/-- `n.toString(36)` -/
def toString36 (n : ℕ) : String := String.ofList ((digitsOf 36 n).map digit36)

def padStart (width : ℕ) (fill : Char) (s : String) : String :=
  String.ofList (List.replicate (width - s.length) fill ++ s.toList)

def journalPrefix : String := "journal:"

def journalNs : String := "law"

def journalId (boot seq : ℕ) : String :=
  journalPrefix ++ padStart 9 '0' (toString36 boot) ++ "-" ++ padStart 9 '0' (toString36 seq)

/-- The code units of a string, by which strings are compared. -/
def unitsOf (s : String) : List ℕ := (ofText s).map UInt16.toNat

def idLt (a b : String) : Prop := unitsOf a < unitsOf b

def idLe (a b : String) : Prop := unitsOf a ≤ unitsOf b

instance decidableIdLt (a b : String) : Decidable (idLt a b) := inferInstanceAs (Decidable (unitsOf a < unitsOf b))

instance decidableIdLe (a b : String) : Decidable (idLe a b) := inferInstanceAs (Decidable (unitsOf a ≤ unitsOf b))

def isString (v : Value) (s : JsString) : Bool :=
  match v with
  | .string t => t = s
  | _ => false

/-- The row of the law's own append is not narrated. -/
def narratesOwnAppend (self : JsString) (entry : List (JsString × Value)) : Bool :=
  isText (optionalProperty (.object entry) "op") "law.check" &&
    isText (optionalProperty (.object entry) "targetOp") "vault.append@1" &&
      isString (optionalProperty (.object entry) "principal") self

/-- What is appended for the event that the sequence has come to; an entry has no `ts` of its own. -/
def journalRow (boot seq : ℕ) (now : Number) (entry : List (JsString × Value)) : Vault.Revision :=
  ⟨journalNs, journalId boot seq, .object ((ofText "ts", .number now) :: entry), .null⟩

end Ids

section Order

lemma unitsOf_injective : Function.Injective unitsOf := by
  intro s t h
  exact ofText_injective (List.map_injective_iff.mpr (fun _ _ => UInt16.toNat_inj.mp) h)

lemma unitsOf_append (s t : String) : unitsOf (s ++ t) = unitsOf s ++ unitsOf t := by
  rw [unitsOf, ofText, String.toList_append, List.flatMap_append, List.map_append]
  rfl

def unit36 (d : ℕ) : ℕ := if d < 10 then 0x30 + d else 0x57 + d

lemma units_digit36 {d : ℕ} (h : d < 36) : (units (digit36 d)).map UInt16.toNat = [unit36 d] := by
  interval_cases d <;> rfl

lemma unit36_lt {d e : ℕ} (h : d < e) : unit36 d < unit36 e := by
  unfold unit36
  split_ifs <;> omega

lemma unitsOf_padStart {width n : ℕ} :
    unitsOf (padStart width '0' (toString36 n)) = (padDigits width (digitsOf 36 n)).map unit36 := by
  have hlen : (toString36 n).length = (digitsOf 36 n).length := by
    rw [toString36, String.length_ofList, List.length_map]
  have hchars : (padStart width '0' (toString36 n)).toList = (padDigits width (digitsOf 36 n)).map digit36 := by
    rw [padStart, String.toList_ofList, hlen, toString36, String.toList_ofList, padDigits, List.map_append,
      List.map_replicate]
    rfl
  rw [unitsOf, ofText, hchars, List.flatMap_map, List.map_flatMap, ← List.flatMap_pure_eq_map unit36]
  refine List.flatMap_congr fun d hd => ?_
  exact units_digit36 (padDigits_lt (by decide) d hd)

/-- The ids are ordered by the boot, and within a boot by the sequence. -/
lemma idLt_journalId {boot boot' seq seq' : ℕ} (h : boot < boot' ∨ boot = boot' ∧ seq < seq') (hboot : boot' < 36 ^ 9)
    (hseq : seq' < 36 ^ 9) : idLt (journalId boot seq) (journalId boot' seq') := by
  have hless : ∀ {k n : ℕ}, k < n → n < 36 ^ 9 →
      unitsOf (padStart 9 '0' (toString36 k)) < unitsOf (padStart 9 '0' (toString36 n)) := by
    intro k n hkn hn
    rw [unitsOf_padStart, unitsOf_padStart]
    exact map_lt_map (fun d _ e _ => unit36_lt) (padDigits_lt (by decide)) (padDigits_lt (by decide))
      (padDigits_lt_padDigits (by decide) (by decide) hkn hn)
  unfold idLt journalId
  simp only [unitsOf_append, List.append_assoc]
  refine List.append_left_lt ?_
  obtain hlt | ⟨rfl, hlt⟩ := h
  · refine append_lt_append ?_ (hless hlt hboot) _ _
    rw [unitsOf_padStart, unitsOf_padStart, List.length_map, List.length_map,
      length_padDigits (by decide) (by decide) (hlt.trans hboot), length_padDigits (by decide) (by decide) hboot]
  · exact List.append_left_lt (List.append_left_lt (hless hlt hseq))

end Order

end VivimOmega.Law

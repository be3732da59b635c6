import VivimOmega.Law.Policy
import VivimOmega.Library.OrderedMap
import VivimOmega.Library.Transition

/-! The forbidden overlay: what is denied in memory, and its records in the vault. -/

namespace VivimOmega.Law

open Library Library.Json

section Lists

/-- A list of operations as `requireOps` returns it: sorted, without repetitions. -/
def Listed (ops : List JsString) : Prop := (∀ op ∈ ops, op ≠ []) ∧ ops.Nodup ∧ ops.Pairwise keyLe

abbrev OpList := {ops : List JsString // Listed ops}

lemma one_listed {op : JsString} (h : op ≠ []) : Listed [op] :=
  ⟨List.forall_mem_singleton.mpr h, List.nodup_singleton op, List.pairwise_singleton keyLe op⟩

def noOps : OpList := ⟨[], nofun, List.nodup_nil, List.Pairwise.nil⟩

instance : Std.Total keyLe := ⟨fun _ _ => le_total _ _⟩

instance : IsTrans JsString keyLe := ⟨fun _ _ _ => le_trans⟩

def normalize (ops : List JsString) : List JsString := ops.dedup.insertionSort keyLe

lemma listed_normalize {ops : List JsString} (h : ∀ op ∈ ops, op ≠ []) : Listed (normalize ops) := by
  have hperm : (normalize ops).Perm ops.dedup := List.perm_insertionSort keyLe _
  refine ⟨fun op hop => ?_, hperm.nodup_iff.mpr (List.nodup_dedup ops), List.pairwise_insertionSort keyLe _⟩
  exact h op (List.mem_dedup.mp (hperm.mem_iff.mp hop))

lemma normalize_listed {ops : List JsString} (h : Listed ops) : normalize ops = ops := by
  rw [normalize, h.2.1.dedup]
  exact h.2.2.insertionSort_eq

def requireName (v : Value) : Except String JsString :=
  match v with
  | .string (u :: rest) => return u :: rest
  | _ => do
    let text ← shown v
    throw ("forbidden: principal must be a non-empty string (got " ++ text ++ ")")

lemma requireName_string {p : JsString} (h : p ≠ []) : requireName (.string p) = .ok p := by
  cases p with
  | nil => exact absurd rfl h
  | cons u rest => rfl

lemma requireName_named {v : Value} {p : JsString} (h : requireName v = .ok p) : p ≠ [] := by
  unfold requireName at h
  split at h
  · cases h
    nofun
  · obtain ⟨_, _, h⟩ := bind_eq_ok h
    cases h

def requireOp (v : Value) : Except String {op : JsString // op ≠ []} :=
  match v with
  | .string (u :: rest) => return ⟨u :: rest, nofun⟩
  | _ => do
    let text ← shown v
    throw ("forbidden: every op must be a non-empty string (got " ++ text ++ ")")

def requireOps (v : Value) : Except String OpList :=
  match v with
  | .array items => do
    let ops ← items.mapM requireOp
    return ⟨normalize (ops.map Subtype.val), listed_normalize fun op hop => by
      obtain ⟨o, _, rfl⟩ := List.mem_map.mp hop
      exact o.2⟩
  | _ => throw "forbidden: ops must be an array of contract-id strings"

end Lists

section Records

structure ForbiddenEntry where
  principal : JsString
  ops : OpList

def toRecord (now : Number) (e : ForbiddenEntry) : Value :=
  .object [(ofText "principal", .string e.principal), (ofText "ops", .array (e.ops.1.map .string)),
    (ofText "updatedAt", .number now)]

/-- A row as an entry, and nothing where it is malformed. -/
def fromForbiddenRecord (data : Value) : Option ForbiddenEntry :=
  match requireName (optionalProperty data "principal"), requireOps (optionalProperty data "ops") with
  | .ok principal, .ok ops => some ⟨principal, ops⟩
  | _, _ => none

lemma mapM_requireOp {ops : List JsString} (h : ∀ op ∈ ops, op ≠ []) :
    ∃ named, (ops.map Value.string).mapM requireOp = .ok named ∧ named.map Subtype.val = ops := by
  induction ops with
  | nil => exact ⟨[], rfl, rfl⟩
  | cons op rest ih =>
    obtain ⟨hop, hrest⟩ := List.forall_mem_cons.mp h
    obtain ⟨named, hnamed, hvalues⟩ := ih hrest
    have hone : requireOp (.string op) = .ok ⟨op, hop⟩ := by
      cases op with
      | nil => exact absurd rfl hop
      | cons u tail => rfl
    refine ⟨⟨op, hop⟩ :: named, ?_, congrArg (op :: ·) hvalues⟩
    rw [List.map_cons, List.mapM_cons, hone, hnamed]
    rfl

lemma requireOps_listed (ops : OpList) : requireOps (.array (ops.1.map .string)) = .ok ops := by
  obtain ⟨named, hnamed, hvalues⟩ := mapM_requireOp ops.2.1
  rw [requireOps, hnamed, ok_bind]
  refine congrArg Except.ok (Subtype.ext ?_)
  change normalize (named.map Subtype.val) = ops.1
  rw [hvalues, normalize_listed ops.2]

lemma fromForbiddenRecord_toRecord {now : Number} {e : ForbiddenEntry} (h : e.principal ≠ []) :
    fromForbiddenRecord (toRecord now e) = some e := by
  obtain ⟨principal, ops⟩ := e
  have hops : requireOps (optionalProperty (toRecord now ⟨principal, ops⟩) "ops") = .ok ops :=
    requireOps_listed ops
  have hname : requireName (optionalProperty (toRecord now ⟨principal, ops⟩) "principal") = .ok principal := by
    cases principal with
    | nil => exact absurd rfl h
    | cons u rest => rfl
  rw [fromForbiddenRecord, hops, hname]

end Records

section Table

abbrev ForbiddenTable := OrderedMap JsString OpList

namespace ForbiddenTable

variable (t : ForbiddenTable) (p : JsString)

def replace (ops : OpList) : ForbiddenTable :=
  if ops.1 = [] then t.delete p else t.set p ops

def isForbidden (op : JsString) : Bool := (t.get? p).any fun ops => op ∈ ops.1

def clear : ForbiddenTable := t.delete p

def listOf : OpList := (t.get? p).getD noOps

lemma listOf_replace (ops : OpList) (q : JsString) :
    (t.replace p ops).listOf q = if q = p then ops else t.listOf q := by
  unfold replace
  split_ifs with hops hq hq
  · rw [listOf, OrderedMap.get?_delete, if_pos hq]
    exact Subtype.ext hops.symm
  · rw [listOf, OrderedMap.get?_delete, if_neg hq, listOf]
  · rw [listOf, OrderedMap.get?_set, if_pos hq, Option.getD_some]
  · rw [listOf, OrderedMap.get?_set, if_neg hq, listOf]

lemma listOf_clear (q : JsString) : (t.clear p).listOf q = if q = p then noOps else t.listOf q := by
  rw [clear, listOf, OrderedMap.get?_delete]
  split_ifs <;> rfl

end ForbiddenTable

end Table

end VivimOmega.Law

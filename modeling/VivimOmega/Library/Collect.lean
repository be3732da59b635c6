import VivimOmega.Library.Json.Stringify

/-! Lists that are gone through with something that may refuse. -/

namespace VivimOmega.Library

open Json

section Collect

variable {α β : Type} {xs : List α} {R : α → Except String β → Prop} {outs : List (Except String β)}

/-- Where each element gives a result of a kind, all are collected. -/
lemma mapM_exists {f : α → Except String β} {P : β → Prop} (h : ∀ x ∈ xs, ∃ y, f x = .ok y ∧ P y) :
    ∃ ys, xs.mapM f = .ok ys ∧ ∀ y ∈ ys, P y := by
  induction xs with
  | nil => exact ⟨[], rfl, nofun⟩
  | cons x rest ih =>
    obtain ⟨⟨y, hy, hP⟩, hrest⟩ := List.forall_mem_cons.mp h
    obtain ⟨ys, hys, hall⟩ := ih hrest
    refine ⟨y :: ys, ?_, List.forall_mem_cons.mpr ⟨hP, hall⟩⟩
    rw [List.mapM_cons, hy, hys]
    rfl

lemma forall₂_mem {S : α → β → Prop} {ys : List β} (h : List.Forall₂ S xs ys) {x : α} (hx : x ∈ xs) :
    ∃ y ∈ ys, S x y := by
  induction h with
  | nil => cases hx
  | cons hS _ ih =>
    cases hx with
    | head => exact ⟨_, List.mem_cons_self, hS⟩
    | tail _ hx =>
      obtain ⟨y, hy, hS⟩ := ih hx
      exact ⟨y, List.mem_cons_of_mem _ hy, hS⟩

lemma mapM_error (f : α → Except String β) {x : α} {err : String} (hx : x ∈ xs)
    (hf : f x = .error err) : ∃ err, xs.mapM f = .error err := by
  induction xs with
  | nil => cases hx
  | cons a rest ih =>
    rw [List.mapM_cons]
    cases ha : f a with
    | error e => exact ⟨e, rfl⟩
    | ok b =>
      cases hx with
      | head => rw [hf] at ha; cases ha
      | tail _ hx =>
        obtain ⟨err, herr⟩ := ih hx
        rw [herr]
        exact ⟨err, rfl⟩

lemma mapM_eq {f : α → Except String β} (h : List.Forall₂ R xs outs) (heq : ∀ x ∈ xs, ∀ out, R x out → out = f x) :
    outs.mapM id = xs.mapM f := by
  induction h with
  | nil => rfl
  | cons hR _ ih =>
    obtain ⟨hx, hrest⟩ := List.forall_mem_cons.mp heq
    rw [List.mapM_cons, List.mapM_cons, hx _ hR, ih hrest]
    rfl

/-- Where nothing is rejected, everything that is waited for is there. -/
lemma mapM_ok_of_forall (h : List.Forall₂ R xs outs)
    (hok : ∀ x ∈ xs, ∀ out, R x out → ∃ b, out = .ok b) :
    ∃ bs, outs.mapM id = .ok bs ∧ List.Forall₂ (fun x b => R x (.ok b)) xs bs := by
  induction h with
  | nil => exact ⟨[], rfl, .nil⟩
  | cons hR _ ih =>
    obtain ⟨hx, hrest⟩ := List.forall_mem_cons.mp hok
    obtain ⟨b, rfl⟩ := hx _ hR
    obtain ⟨bs, hbs, hall⟩ := ih hrest
    refine ⟨b :: bs, ?_, .cons hR hall⟩
    rw [List.mapM_cons, hbs]
    rfl

lemma mapM_forall₂ {f : α → Except String β} {ys : List β}
    (h : xs.mapM f = .ok ys) : List.Forall₂ (fun x y => f x = .ok y) xs ys := by
  induction xs generalizing ys with
  | nil =>
    cases h
    exact .nil
  | cons x rest ih =>
    rw [List.mapM_cons] at h
    obtain ⟨y, hy, h⟩ := bind_eq_ok h
    obtain ⟨ys, hys, h⟩ := bind_eq_ok h
    cases h
    exact .cons hy (ih hys)

lemma forall₂_and {S : α → β → Prop} {P : β → Prop} {ys : List β}
    (h : List.Forall₂ S xs ys) (hP : ∀ y ∈ ys, P y) : List.Forall₂ (fun x y => S x y ∧ P y) xs ys := by
  induction h with
  | nil => exact .nil
  | cons hS _ ih =>
    obtain ⟨hy, hrest⟩ := List.forall_mem_cons.mp hP
    exact .cons ⟨hS, hy⟩ (ih hrest)

lemma mem_of_mapM {f : α → Except String β} {ys : List β} (h : xs.mapM f = .ok ys) {x : α} {y : β} (hx : x ∈ xs)
    (hy : f x = .ok y) : y ∈ ys := by
  obtain ⟨z, hz, hxz⟩ := forall₂_mem (mapM_forall₂ h) hx
  rw [hy] at hxz
  cases hxz
  exact hz

lemma mapM_ok_iff {f : α → Except String β} :
    (∃ ys, xs.mapM f = .ok ys) ↔ ∀ x ∈ xs, ∃ y, f x = .ok y := by
  constructor
  · rintro ⟨ys, hys⟩ x hx
    obtain ⟨y, _, hy⟩ := forall₂_mem (mapM_forall₂ hys) hx
    exact ⟨y, hy⟩
  · intro h
    obtain ⟨ys, hys, _⟩ := mapM_exists (P := fun _ => True) fun x hx => (h x hx).imp fun y hy => ⟨hy, trivial⟩
    exact ⟨ys, hys⟩

end Collect

end VivimOmega.Library

import Mathlib

/-! Programs that write to a store and may die after any of their writes. -/

namespace VivimOmega.Library

/-- What the program leaves after each of its writes, and how it ends. -/
def Writing (S W E α : Type) := S → List (W × S) × Except E α

namespace Writing

variable {S W E α β : Type}

/-- What the last write left. -/
def last (s : S) (trace : List (W × S)) : S := (trace.getLast?.map Prod.snd).getD s

@[simp] lemma last_nil (s : S) : last s ([] : List (W × S)) = s := rfl

lemma last_append (s : S) (xs ys : List (W × S)) : last s (xs ++ ys) = last (last s xs) ys := by
  cases ys using List.reverseRecOn with
  | nil => simp
  | append_singleton ys y => simp [last, ← List.append_assoc]

def done (a : α) : Writing S W E α := fun _ => ([], .ok a)

def refuse (e : E) : Writing S W E α := fun _ => ([], .error e)

def look : Writing S W E S := fun s => ([], .ok s)

def write (w : W) (f : S → S) : Writing S W E Unit := fun s => ([(w, f s)], .ok ())

def bind (p : Writing S W E α) (k : α → Writing S W E β) : Writing S W E β := fun s =>
  match p s with
  | (trace, .error e) => (trace, .error e)
  | (trace, .ok a) => (trace ++ (k a (last s trace)).1, (k a (last s trace)).2)

instance instMonadWriting : Monad (Writing S W E) where
  pure := done
  bind := bind

/-- Every write leaves what it is asked to, and so does the end. -/
def Meets (writes : W → S → Prop) (ends : Except E α → S → Prop) (p : Writing S W E α) (s : S) : Prop :=
  (∀ x ∈ (p s).1, writes x.1 x.2) ∧ ends (p s).2 (last s (p s).1)

section Rules

variable {writes : W → S → Prop} {post : Except E α → S → Prop} {ends : Except E β → S → Prop} {s : S}
variable {p : Writing S W E α} {k : α → Writing S W E β}

lemma meets_bind (hp : Meets writes post p s) (hok : ∀ a t, post (.ok a) t → Meets writes ends (k a) t)
    (herror : ∀ e t, post (.error e) t → ends (.error e) t) : Meets writes ends (p >>= k) s := by
  obtain ⟨hwrites, hpost⟩ := hp
  have hbind : (p >>= k) s = bind p k s := rfl
  rw [Meets, hbind, bind]
  cases hrun : p s with
  | mk trace result =>
    rw [hrun] at hwrites hpost
    cases result with
    | error e => exact ⟨hwrites, herror e _ hpost⟩
    | ok a =>
      obtain ⟨hlater, hends⟩ := hok a _ hpost
      refine ⟨List.forall_mem_append.mpr ⟨hwrites, hlater⟩, ?_⟩
      rw [last_append]
      exact hends

lemma Meets.mono {later : W → S → Prop} {past : Except E α → S → Prop} (h : Meets writes post p s)
    (hwrites : ∀ w t, writes w t → later w t) (hends : ∀ r t, post r t → past r t) : Meets later past p s :=
  ⟨fun x hx => hwrites x.1 x.2 (h.1 x hx), hends _ _ h.2⟩

lemma Meets.congr {q : Writing S W E α} (h : Meets writes post q s) (heq : p s = q s) : Meets writes post p s := by
  rw [Meets, heq]
  exact h

lemma meets_done {a : β} (h : ends (.ok a) s) : Meets writes ends (pure a) s := ⟨List.forall_mem_nil _, h⟩

lemma meets_refuse {e : E} (h : ends (.error e) s) : Meets writes ends (refuse e) s := ⟨List.forall_mem_nil _, h⟩

lemma meets_look {k : S → Writing S W E β} (h : Meets writes ends (k s) s) : Meets writes ends (look >>= k) s := by
  have hbind : (look >>= k) s = ([] ++ (k s s).1, (k s s).2) := rfl
  rw [Meets, hbind]
  exact h

lemma meets_write {w : W} {f : S → S} {k : Unit → Writing S W E β} (hw : writes w (f s)) (h : Meets writes ends (k ()) (f s)) :
    Meets writes ends (write w f >>= k) s := by
  have hbind : (write w f >>= k) s = ([(w, f s)] ++ (k () (f s)).1, (k () (f s)).2) := rfl
  rw [Meets, hbind]
  refine ⟨List.forall_mem_append.mpr ⟨List.forall_mem_singleton.mpr hw, h.1⟩, ?_⟩
  rw [last_append]
  exact h.2

lemma mem_bind {a : α} {x : W × S} (hp : (p s).2 = .ok a) (hx : x ∈ (k a (last s (p s).1)).1) : x ∈ ((p >>= k) s).1 := by
  have hbind : (p >>= k) s = bind p k s := rfl
  rw [hbind, bind]
  cases hrun : p s with
  | mk trace result =>
    rw [hrun] at hp hx
    cases hp
    exact List.mem_append_right trace hx

lemma mem_write (w : W) (f : S → S) (k : Unit → Writing S W E β) (s : S) : (w, f s) ∈ ((write w f >>= k) s).1 :=
  List.mem_cons_self

end Rules

/-- The store where the process dies after so many writes, or ends. -/
def after (p : Writing S W E α) (s : S) : Option ℕ → S
  | none => last s (p s).1
  | some n => last s ((p s).1.take n)

/-- Whatever a write left is left by a death. -/
lemma exists_after {p : Writing S W E α} {s : S} {x : W × S} (hx : x ∈ (p s).1) : ∃ n, p.after s (some n) = x.2 := by
  obtain ⟨n, hn, rfl⟩ := List.mem_iff_getElem.mp hx
  refine ⟨n + 1, ?_⟩
  rw [after, last, List.take_succ_eq_append_getElem hn, List.getLast?_concat]
  rfl

/-- The process does not die after a write of the others. -/
def Survives (survivable : W → Prop) (p : Writing S W E α) (s : S) (death : Option ℕ) : Prop :=
  ∀ n ∈ death, ∀ x ∈ ((p s).1.take n).getLast?, survivable x.1

lemma Meets.after {writes : W → S → Prop} {ends : Except E α → S → Prop} {p : Writing S W E α} {s : S} {survivable : W → Prop}
    {P : S → Prop} {death : Option ℕ} (h : Meets writes ends p s) (hs : P s) (hwrites : ∀ w t, survivable w → writes w t → P t)
    (hends : ∀ r t, ends r t → P t) (hdeath : Survives survivable p s death) : P (p.after s death) := by
  cases death with
  | none => exact hends _ _ h.2
  | some n =>
    have hlast := hdeath n rfl
    rw [Writing.after, last]
    cases hx : ((p s).1.take n).getLast? with
    | none => exact hs
    | some x => exact hwrites x.1 x.2 (hlast x hx) (h.1 x (List.mem_of_mem_take (List.mem_of_getLast? hx)))

end Writing

end VivimOmega.Library

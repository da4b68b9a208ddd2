import K8Labs.Python.Exc
import Mathlib.Data.List.MinMax

/-!
# Comprehensions whose parts may raise

`select` is the comprehension with a condition, `minBy` is `min` with a key.  Where the parts return
the values of a function, both are those of that function (`select_eq_ok`, `minBy_eq_ok`).
-/

namespace Py

/-- The comprehension that keeps the elements with a property that may raise. -/
def select {α ε : Type} (p : α → Except ε Bool) : List α → Except ε (List α)
  | [] => .ok []
  | x :: xs => do
    let keep ← p x
    let rest ← select p xs
    pure (if keep then x :: rest else rest)

/-- `min` with a key, none of no elements. -/
def leastBy {α β : Type} [LinearOrder β] (key : α → β) (xs : List α) : Option α := xs.argmin key

/-- `min` with a key that may raise. -/
def minBy {α β ε : Type} [LinearOrder β] (key : α → Except ε β) (xs : List α) :
    Except ε (Option α) := do
  let keyed ← traverse (fun x => (key x).map fun k => (x, k)) xs
  pure ((leastBy Prod.snd keyed).map Prod.fst)

/-- A comprehension with a condition. -/
theorem flatMap_ite_singleton {α β : Type*} (p : α → Prop) [DecidablePred p] (f : α → β)
    (xs : List α) : (xs.flatMap fun x => if p x then [f x] else []) = (xs.filter p).map f := by
  induction xs with
  | nil => rfl
  | cons x xs ih =>
    by_cases hx : p x
    · rw [List.flatMap_cons, if_pos hx, ih, List.filter_cons_of_pos (by simpa using hx)]
      rfl
    · rw [List.flatMap_cons, if_neg hx, ih, List.filter_cons_of_neg (by simpa using hx)]
      rfl

section Traverse

/-- A comprehension whose steps return the values of a function when they return. -/
theorem traverse_eq_ok_map {α β ε : Type*} {f : α → Except ε β} {g : α → β} {P : α → Prop}
    {xs : List α} {ys : List β} (h : ∀ x ∈ xs, ∀ y, f x = .ok y ↔ P x ∧ y = g x) :
    traverse f xs = .ok ys ↔ (∀ x ∈ xs, P x) ∧ ys = xs.map g := by
  induction xs generalizing ys with
  | nil => simp [traverse, eq_comm]
  | cons x xs ih =>
    have hrest : ∀ {ys}, traverse f xs = .ok ys ↔ (∀ x ∈ xs, P x) ∧ ys = xs.map g :=
      ih fun x' hx' => h x' (List.mem_cons_of_mem _ hx')
    simp only [traverse, Py.bind_eq_ok, h x List.mem_cons_self, hrest, Except.ok.injEq,
      List.forall_mem_cons, List.map_cons]
    constructor
    · rintro ⟨y, ⟨hx, rfl⟩, ys', ⟨hxs, rfl⟩, rfl⟩
      exact ⟨⟨hx, hxs⟩, rfl⟩
    · rintro ⟨⟨hx, hxs⟩, rfl⟩
      exact ⟨_, ⟨hx, rfl⟩, _, ⟨hxs, rfl⟩, rfl⟩

theorem exists_forall₂ {α β : Type*} {R : α → β → Prop} {xs : List α} :
    (∃ ys, List.Forall₂ R xs ys) ↔ ∀ x ∈ xs, ∃ y, R x y := by
  constructor
  · rintro ⟨ys, hall⟩ x hx
    obtain ⟨y, -, hxy⟩ := Py.forall₂_mem_right hall.flip hx
    exact ⟨y, hxy⟩
  · intro h
    induction xs with
    | nil => exact ⟨[], .nil⟩
    | cons x xs ih =>
      rw [List.forall_mem_cons] at h
      obtain ⟨⟨y, hy⟩, hrest⟩ := h
      obtain ⟨ys, hys⟩ := ih hrest
      exact ⟨y :: ys, .cons hy hys⟩

/-- Third elements for related pairs. -/
theorem forall₂_split {α β γ : Type*} {R : α → β → Prop} {S : α → γ → Prop} {T : β → γ → Prop}
    {xs : List α} {ys : List β} (h : List.Forall₂ R xs ys)
    (hsplit : ∀ x y, R x y → ∃ z, S x z ∧ T y z) :
    ∃ zs, List.Forall₂ S xs zs ∧ List.Forall₂ T ys zs := by
  induction h with
  | nil => exact ⟨[], .nil, .nil⟩
  | cons hxy _ ih =>
    obtain ⟨z, hxz, hyz⟩ := hsplit _ _ hxy
    obtain ⟨zs, hxs, hys⟩ := ih
    exact ⟨z :: zs, .cons hxz hxs, .cons hyz hys⟩

theorem traverse_ok {α β ε : Type*} {f : α → Except ε β} {g : α → β} {xs : List α}
    (h : ∀ x ∈ xs, f x = .ok (g x)) : traverse f xs = .ok (xs.map g) := by
  refine (traverse_eq_ok_map (P := fun _ => True) fun x hx y => ?_).2 ⟨fun _ _ => trivial, rfl⟩
  rw [h x hx, Except.ok.injEq, true_and, eq_comm]

end Traverse

section Select

variable {α β ε : Type} {p : α → Except ε Bool} {xs : List α}

theorem select_eq_ok {q : α → Bool} (h : ∀ x ∈ xs, p x = .ok (q x)) :
    select p xs = .ok (xs.filter q) := by
  induction xs with
  | nil => rfl
  | cons x xs ih =>
    rw [List.forall_mem_cons] at h
    rw [select, h.1, ih h.2, List.filter_cons]
    rfl

/-- The condition is asked of every element. -/
theorem isOk_of_select {ys : List α} (h : select p xs = .ok ys) : ∀ x ∈ xs, ∃ b, p x = .ok b := by
  induction xs generalizing ys with
  | nil => exact fun x hx => by cases hx
  | cons x xs ih =>
    obtain ⟨keep, hkeep, hrest⟩ := bind_eq_ok.1 h
    obtain ⟨rest, hrest, -⟩ := bind_eq_ok.1 hrest
    exact List.forall_mem_cons.2 ⟨⟨keep, hkeep⟩, ih hrest⟩

end Select

section Least

variable {α β ε : Type} [LinearOrder β] {g : α → β} {xs : List α} {x y : α}

theorem leastBy_eq_none : leastBy g xs = none ↔ xs = [] := List.argmin_eq_none

theorem mem_of_leastBy (h : leastBy g xs = some x) : x ∈ xs := List.argmin_mem h

theorem le_of_leastBy (h : leastBy g xs = some x) (hy : y ∈ xs) : g x ≤ g y :=
  List.le_of_mem_argmin hy h

theorem minBy_eq_ok {key : α → Except ε β}
    (h : ∀ x ∈ xs, key x = .ok (g x)) : ∃ o, minBy key xs = .ok o ∧ (o = none ↔ xs = []) ∧
      ∀ x ∈ o, x ∈ xs ∧ ∀ y ∈ xs, g x ≤ g y := by
  have hkeyed : traverse (fun x => (key x).map fun k => (x, k)) xs =
      .ok (xs.map fun x => (x, g x)) := traverse_ok fun x hx => by rw [h x hx]; rfl
  refine ⟨_, by rw [minBy, hkeyed]; rfl, ?_, ?_⟩
  · rw [Option.map_eq_none_iff, leastBy_eq_none, List.map_eq_nil_iff]
  · intro x hx
    obtain ⟨pair, hpair, rfl⟩ := Option.map_eq_some_iff.1 hx
    obtain ⟨x, hmem, rfl⟩ := List.mem_map.1 (mem_of_leastBy hpair)
    exact ⟨hmem, fun y hy => le_of_leastBy (g := Prod.snd) hpair (List.mem_map_of_mem hy)⟩

end Least

end Py

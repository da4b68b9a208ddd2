import Mathlib.Data.List.Forall2
import Mathlib.Data.List.Perm.Basic
import Mathlib.Tactic.SplitIfs

/-!
# Python exceptions

`Exc` is an exception: its built-in class and its message.  A function that may raise returns
`Except Exc α`; `traverse` is the comprehension whose body may raise.
-/

namespace Py

/-- Optional strings are compared in many definitions; the instance has a name for all of them. -/
instance lawfulBEq_optionString : LawfulBEq (Option String) := Option.instLawfulBEq String

/-- The exception classes the modelled code raises or catches: built-in ones, and those of `struct`
and `subprocess`. -/
inductive ExcClass where
  | valueError
  | typeError
  | keyError
  | indexError
  | attributeError
  | runtimeError
  | recursionError
  | unboundLocalError
  | assertionError
  | arithmeticError
  | zeroDivisionError
  | overflowError
  | osError
  | fileExistsError
  | fileNotFoundError
  | jsonDecodeError
  | unicodeDecodeError
  | structError
  | calledProcessError
  | systemExit
  deriving DecidableEq

namespace ExcClass

/-- The direct base class, `none` for those that no clause of the modelled code names. -/
def base : ExcClass → Option ExcClass
  | recursionError => some runtimeError
  | zeroDivisionError => some arithmeticError
  | overflowError => some arithmeticError
  | fileExistsError => some osError
  | fileNotFoundError => some osError
  | jsonDecodeError => some valueError
  | unicodeDecodeError => some valueError
  | _ => none

/-- `issubclass`; the hierarchy above is two levels deep. -/
def isSubclass (c d : ExcClass) : Bool := c == d || c.base == some d

end ExcClass

/-- An exception with its message. -/
structure Exc where
  /-- The class it was raised with. -/
  cls : ExcClass
  /-- `str(exc)`. -/
  message : String
  deriving DecidableEq

/-- The exception is caught by an `except` clause naming the given classes. -/
def Exc.caughtBy (e : Exc) (classes : List ExcClass) : Bool := classes.any e.cls.isSubclass

/-- `raise ValueError(message)`. -/
def valueError {α : Type*} (message : String) : Except Exc α := .error ⟨.valueError, message⟩

/-- `raise TypeError(message)`. -/
def typeError {α : Type*} (message : String) : Except Exc α := .error ⟨.typeError, message⟩

variable {α β ε : Type*}

/-- Inversion of a sequence of two steps. -/
theorem bind_eq_ok {x : Except ε α} {f : α → Except ε β} {b : β} :
    x.bind f = .ok b ↔ ∃ a, x = .ok a ∧ f a = .ok b := by
  cases x <;> simp [Except.bind]

theorem map_eq_ok {x : Except ε α} {f : α → β} {b : β} :
    x.map f = .ok b ↔ ∃ a, x = .ok a ∧ f a = b := by
  cases x <;> simp [Except.map]

/-- Inversion of a check that raises. -/
theorem ite_error_eq_ok {c : Prop} [Decidable c] {e : ε} {x : Except ε α} {a : α} :
    (if c then .error e else x) = .ok a ↔ ¬ c ∧ x = .ok a := by
  split_ifs with h <;> simp [h]

/-- The computation returns a value that passes the test. -/
def okAnd (x : Except ε α) (test : α → Bool) : Bool :=
  match x with
  | .ok a => test a
  | .error _ => false

theorem okAnd_eq_true {x : Except ε α} {test : α → Bool} :
    okAnd x test = true ↔ ∃ a, x = .ok a ∧ test a = true := by
  cases x <;> simp [okAnd]

theorem eq_of_okAnd [DecidableEq α] {x : Except ε α} {a : α}
    (h : okAnd x (fun b => b = a) = true) : x = .ok a := by
  obtain ⟨b, hb, heq⟩ := okAnd_eq_true.1 h
  rw [hb, of_decide_eq_true heq]

/-- The computation raises only exceptions of the given classes. -/
def Raises (classes : List ExcClass) (x : Except Exc α) : Prop :=
  ∀ e, x = .error e → e.cls ∈ classes

section Raises

variable {classes : List ExcClass}

theorem raises_ok (a : α) : Raises classes (.ok a : Except Exc α) := fun _ h => by cases h

theorem raises_error {cls : ExcClass} {message : String} (h : cls ∈ classes) :
    Raises classes (.error ⟨cls, message⟩ : Except Exc α) := by
  rintro e he
  cases he
  exact h

theorem Raises.bind {x : Except Exc α} {f : α → Except Exc β} (hx : Raises classes x)
    (hf : ∀ a, Raises classes (f a)) : Raises classes (x.bind f) := by
  cases x with
  | ok a => exact hf a
  | error e => exact fun e' he => hx e' (by cases he; rfl)

theorem Raises.mono {classes' : List ExcClass} {x : Except Exc α} (hx : Raises classes x)
    (h : classes ⊆ classes') : Raises classes' x := fun e he => h (hx e he)

theorem Raises.map {x : Except Exc α} {f : α → β} (hx : Raises classes x) :
    Raises classes (x.map f) := by
  cases x with
  | ok a => exact raises_ok _
  | error e => exact fun e' he => hx e' (by cases he; rfl)

end Raises

/-- A step for each element, in order, until one raises. -/
def traverse (f : α → Except ε β) : List α → Except ε (List β)
  | [] => .ok []
  | x :: xs => (f x).bind fun y => (traverse f xs).bind fun ys => .ok (y :: ys)

theorem traverse_eq_ok {f : α → Except ε β} {xs : List α} {ys : List β} :
    traverse f xs = .ok ys ↔ List.Forall₂ (fun x y => f x = .ok y) xs ys := by
  induction xs generalizing ys with
  | nil => simp [traverse, eq_comm]
  | cons x xs ih =>
    simp only [traverse, bind_eq_ok, ih, Except.ok.injEq, List.forall₂_cons_left_iff]
    constructor
    · rintro ⟨y, hy, ys', hys, rfl⟩
      exact ⟨y, ys', hy, hys, rfl⟩
    · rintro ⟨y, ys', hy, hys, rfl⟩
      exact ⟨y, hy, ys', hys, rfl⟩

theorem Raises.traverse {classes : List ExcClass} {f : α → Except Exc β} {xs : List α}
    (h : ∀ x ∈ xs, Raises classes (f x)) : Raises classes (traverse f xs) := by
  induction xs with
  | nil => exact raises_ok _
  | cons x xs ih =>
    refine Raises.bind (h x List.mem_cons_self) fun y => ?_
    exact (ih fun x hx => h x (List.mem_cons_of_mem _ hx)).bind fun ys => raises_ok _

theorem forall₂_mem_right {R : α → β → Prop} {xs : List α} {ys : List β}
    (h : List.Forall₂ R xs ys) {y : β} (hy : y ∈ ys) : ∃ x ∈ xs, R x y := by
  induction h with
  | nil => cases hy
  | cons hxy _ ih =>
    rcases List.mem_cons.1 hy with rfl | hy
    · exact ⟨_, List.mem_cons_self, hxy⟩
    · obtain ⟨x, hx, hR⟩ := ih hy
      exact ⟨x, List.mem_cons_of_mem _ hx, hR⟩

theorem forall₂_imp_mem {R S : α → β → Prop} {xs : List α} {ys : List β}
    (h : List.Forall₂ R xs ys) (himp : ∀ x ∈ xs, ∀ y, R x y → S x y) : List.Forall₂ S xs ys := by
  induction h with
  | nil => exact .nil
  | cons hxy _ ih =>
    exact .cons (himp _ List.mem_cons_self _ hxy)
      (ih fun x hx => himp x (List.mem_cons_of_mem _ hx))

theorem traverse_isOk {f : α → Except ε β} {xs : List α} :
    (∃ ys, traverse f xs = .ok ys) ↔ ∀ x ∈ xs, ∃ y, f x = .ok y := by
  induction xs with
  | nil => simp [traverse]
  | cons x xs ih =>
    simp only [traverse, bind_eq_ok, List.forall_mem_cons, ← ih]
    constructor
    · rintro ⟨-, y, hy, ys, hys, -⟩
      exact ⟨⟨y, hy⟩, ys, hys⟩
    · rintro ⟨⟨y, hy⟩, ys, hys⟩
      exact ⟨_, y, hy, ys, hys, rfl⟩

/-- The results of a comprehension are the results of its elements. -/
theorem mem_traverse {f : α → Except ε β} {xs : List α} {ys : List β}
    (h : traverse f xs = .ok ys) {y : β} : y ∈ ys ↔ ∃ x ∈ xs, f x = .ok y := by
  have hall := traverse_eq_ok.1 h
  clear h
  induction hall with
  | nil => simp
  | cons hxy _ ih =>
    rw [List.mem_cons, List.exists_mem_cons_iff, hxy, Except.ok.injEq, eq_comm]
    exact or_congr_right ih

/-- Elements in another order have their results in another order. -/
theorem traverse_perm {f : α → Except ε β} {xs xs' : List α} {ys ys' : List β} (hp : xs.Perm xs')
    (h : traverse f xs = .ok ys) (h' : traverse f xs' = .ok ys') : ys.Perm ys' := by
  obtain ⟨zs, hzs, hperm⟩ := List.perm_comp_forall₂ hp.symm (traverse_eq_ok.1 h)
  have heq := (traverse_eq_ok.2 hzs).symm.trans h'
  cases heq
  exact hperm.symm

theorem traverse_append (f : α → Except ε β) (xs ys : List α) :
    traverse f (xs ++ ys) = (traverse f xs).bind fun zs => (traverse f ys).map (zs ++ ·) := by
  induction xs with
  | nil => cases h : traverse f ys <;> simp [traverse, Except.bind, Except.map, h]
  | cons x xs ih =>
    rw [List.cons_append, traverse, traverse, ih]
    cases f x with
    | error e => rfl
    | ok y =>
      cases traverse f xs with
      | error e => rfl
      | ok zs => cases traverse f ys <;> rfl

theorem traverse_map {γ : Type*} (f : α → Except ε β) (g : γ → α) (xs : List γ) :
    traverse f (xs.map g) = traverse (fun x => f (g x)) xs := by
  induction xs with
  | nil => rfl
  | cons x xs ih => rw [List.map_cons, traverse, traverse, ih]

/-- A function of each result, applied afterwards. -/
theorem traverse_map_result {γ : Type*} (f : α → Except ε β) (g : β → γ) (xs : List α) :
    traverse (fun x => (f x).map g) xs = (traverse f xs).map (List.map g) := by
  induction xs with
  | nil => rfl
  | cons x xs ih =>
    rw [traverse, traverse, ih]
    cases f x with
    | error e => rfl
    | ok y => cases traverse f xs <;> rfl

/-- A function of each element and its result, applied afterwards. -/
theorem traverse_map_zipWith {γ : Type*} (f : α → Except ε β) (g : α → β → γ) (xs : List α) :
    traverse (fun x => (f x).map (g x)) xs = (traverse f xs).map (List.zipWith g xs) := by
  induction xs with
  | nil => rfl
  | cons x xs ih =>
    rw [traverse, traverse, ih]
    cases f x with
    | error e => rfl
    | ok y => cases traverse f xs <;> rfl

/-- A loop that carries a state through the elements, until a step raises. -/
def fold (f : β → α → Except ε β) : β → List α → Except ε β
  | b, [] => .ok b
  | b, x :: xs => (f b x).bind fun b' => fold f b' xs

theorem fold_append (f : β → α → Except ε β) (b : β) (xs ys : List α) :
    fold f b (xs ++ ys) = (fold f b xs).bind fun c => fold f c ys := by
  induction xs generalizing b with
  | nil => rfl
  | cons x xs ih =>
    rw [List.cons_append, fold, fold]
    cases f b x with
    | error e => rfl
    | ok c => exact ih c

/-- What every step keeps, the loop keeps. -/
theorem fold_invariant {f : β → α → Except ε β} {P : β → Prop}
    (hstep : ∀ b x b', P b → f b x = .ok b' → P b') {xs : List α} {b b' : β} (hb : P b)
    (h : fold f b xs = .ok b') : P b' := by
  induction xs generalizing b with
  | nil =>
    cases h
    exact hb
  | cons x xs ih =>
    obtain ⟨c, hc, hrest⟩ := bind_eq_ok.1 h
    exact ih (hstep b x c hb hc) hrest

end Py

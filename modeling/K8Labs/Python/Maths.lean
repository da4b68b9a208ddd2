import K8Labs.Python.Exc
import Mathlib.Algebra.Order.Field.Basic
import Mathlib.Algebra.BigOperators.Group.List.Basic
import Mathlib.Data.List.Sort
import Mathlib.Order.WithBot
import Mathlib.Tactic.Ring

/-!
# `math` and `statistics`

Floats are read as numbers of an ordered field `K`, with exact arithmetic.  What is no arithmetic,
the logarithm and its like, is as the interpreter computes it: any functions (`Maths`), of which a
theorem assumes what it needs.  A t statistic may be infinite (`Extended`).
-/

namespace Py

/-! ### Numerals of the estimators

Named, so that every module that writes them writes the same term. -/

instance atLeastTwo_five : Nat.AtLeastTwo 5 := inferInstance

instance atLeastTwo_twenty : Nat.AtLeastTwo 20 := inferInstance

/-! ### Functions of the library -/

/-- The functions of `math` and `statistics` on the arguments where they are defined.  The
exponential of a large number is no float. -/
structure Maths (K : Type*) where
  log : K → K
  exp : K → Except Exc K
  sqrt : K → K
  log1p : K → K
  lgamma : K → K
  /-- `statistics.NormalDist().inv_cdf`. -/
  normalQuantile : K → K
  exp_raises : ∀ x, Raises [.overflowError] (exp x)

/-- `random.Random(seed).randrange(n)`, the result of each call. -/
structure RandRange where
  draw : ℕ → ℕ → ℕ → ℕ
  lt : ∀ seed n call, 0 < n → draw seed n call < n

section Field

variable {K : Type*} [Field K]

/-- `x / y`. -/
def div [DecidableEq K] (x y : K) : Except Exc K :=
  if y = 0 then .error ⟨.zeroDivisionError, "float division by zero"⟩ else .ok (x / y)

/-- `statistics.fmean`. -/
def fmean (data : List K) : K := data.sum / data.length

/-- `statistics.stdev`. -/
def stdev (maths : Maths K) (data : List K) : K :=
  maths.sqrt ((data.map fun x => (x - fmean data) ^ 2).sum / (data.length - 1 : ℕ))

/-- The mean of mirrored data. -/
theorem fmean_map_neg (data : List K) : fmean (data.map Neg.neg) = -fmean data := by
  have hsum : (data.map Neg.neg).sum = -data.sum := by
    induction data with
    | nil => simp
    | cons x data ih => simp [ih, add_comm]
  rw [fmean, fmean, hsum, List.length_map, neg_div]

/-- Mirrored data are as spread out. -/
theorem stdev_map_neg (maths : Maths K) (data : List K) :
    stdev maths (data.map Neg.neg) = stdev maths data := by
  have hsq : (fun x => (x - fmean (data.map Neg.neg)) ^ 2) ∘ Neg.neg =
      fun x => (x - fmean data) ^ 2 := by
    funext x
    simp only [Function.comp_apply, fmean_map_neg]
    ring
  rw [stdev, stdev, List.map_map, hsq, List.length_map]

variable [LinearOrder K]

/-- `math.log`. -/
def Maths.logOf (maths : Maths K) (x : K) : Except Exc K :=
  if x ≤ 0 then valueError "math domain error" else .ok (maths.log x)

/-- `math.sqrt`. -/
def Maths.sqrtOf (maths : Maths K) (x : K) : Except Exc K :=
  if x < 0 then valueError "math domain error" else .ok (maths.sqrt x)

end Field

/-! ### Extended numbers -/

/-- A float that is a number: finite or infinite. -/
abbrev Extended (K : Type*) := WithBot (WithTop K)

namespace Extended

variable {K : Type*}

/-- A finite number. -/
def fin (x : K) : Extended K := ((x : WithTop K) : WithBot (WithTop K))

/-- `-x`. -/
def neg [Neg K] : Extended K → Extended K
  | none => some none
  | some none => none
  | some (some x) => some (some (-x))

/-- `abs`. -/
def abs [Neg K] [LinearOrder K] (x : Extended K) : Extended K := max x x.neg

section Neg

variable [InvolutiveNeg K]

@[simp] theorem neg_fin (x : K) : (fin x).neg = fin (-x) := rfl

@[simp] theorem neg_top : (⊤ : Extended K).neg = ⊥ := rfl

@[simp] theorem neg_bot : (⊥ : Extended K).neg = ⊤ := rfl

@[simp] theorem neg_neg (x : Extended K) : x.neg.neg = x := by
  rcases x with _ | _ | x
  · rfl
  · rfl
  · exact congrArg fin (InvolutiveNeg.neg_neg x)

/-- A statistic and its mirror image are equally far from zero. -/
@[simp] theorem abs_neg [LinearOrder K] (x : Extended K) : x.neg.abs = x.abs := by
  rw [abs, abs, neg_neg, max_comm]

end Neg

end Extended

end Py

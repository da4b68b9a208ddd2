import Mathlib.Algebra.Order.Floor.Ring
import Mathlib.Data.Nat.Log
import Mathlib.Data.Rat.Floor
import Mathlib.Tactic.Linarith

/-!
# Python numbers

Floats are read as the exact rational numbers they denote, together with the three non-finite
values; arithmetic on them is exact, and so is their text (`floatText`), where the interpreter
prints the shortest decimal that reads back as the same float.  Integers are `ℤ`.
-/

namespace Py

/-- A float: a finite value, an infinity, or not a number. -/
inductive Float where
  | fin (q : ℚ)
  | inf
  | negInf
  | nan
  deriving DecidableEq

namespace Float

/-- `math.isfinite`. -/
def isFinite : Float → Bool
  | fin _ => true
  | _ => false

/-- The value of a finite float; zero for the others. -/
def toRat : Float → ℚ
  | fin q => q
  | _ => 0

/-- The comparison `x < y`, false as soon as one side is not a number. -/
def lt : Float → Float → Bool
  | fin x, fin y => decide (x < y)
  | fin _, inf => true
  | negInf, fin _ => true
  | negInf, inf => true
  | _, _ => false

/-- The comparison `x <= y`. -/
def le (x y : Float) : Bool := x.lt y || (x == y && x != nan)

/-- `x * q` for a finite factor. -/
def scale (q : ℚ) : Float → Float
  | fin x => fin (x * q)
  | inf => if q = 0 then nan else if 0 < q then inf else negInf
  | negInf => if q = 0 then nan else if 0 < q then negInf else inf
  | nan => nan

/-- `x + y`. -/
def add : Float → Float → Float
  | fin x, fin y => fin (x + y)
  | fin _, y => y
  | inf, negInf => nan
  | inf, nan => nan
  | inf, _ => inf
  | negInf, inf => nan
  | negInf, nan => nan
  | negInf, _ => negInf
  | nan, _ => nan

/-- `str` of a float that is not finite. -/
def nonFiniteText : Float → String
  | inf => "inf"
  | negInf => "-inf"
  | _ => "nan"

end Float

/-- Truncation towards zero. -/
def truncate (q : ℚ) : ℤ := if q < 0 then ⌈q⌉ else ⌊q⌋

/-- A square root as the interpreter computes it, rounding included: any function that is never
negative. -/
structure Sqrt where
  fn : ℚ → ℚ
  nonneg : ∀ q, 0 ≤ fn q

/-- The square root vanishes at zero and at no positive number. -/
def Sqrt.Faithful (sqrt : Sqrt) : Prop := ∀ q, 0 ≤ q → (sqrt.fn q = 0 ↔ q = 0)

/-- Rounding to the nearest integer, ties to the even one. -/
def roundHalfEven (q : ℚ) : ℤ :=
  let f := ⌊q⌋
  if q - f < 1 / 2 then f
  else if 1 / 2 < q - f then f + 1
  else if f % 2 = 0 then f else f + 1

/-- `f"{q:.{digits}f}"` for a finite float. -/
def formatFixed (digits : ℕ) (q : ℚ) : String :=
  let n := (roundHalfEven (|q| * 10 ^ digits)).toNat
  let sign := if q < 0 then "-" else ""
  let whole := toString (n / 10 ^ digits)
  if digits = 0 then sign ++ whole
  else
    let frac := toString (n % 10 ^ digits)
    sign ++ whole ++ "." ++ String.ofList (List.replicate (digits - frac.length) '0') ++ frac

/-- The decimals of a finite float: as many as its exact expansion has, when that is finite. -/
def decimals (q : ℚ) : ℕ :=
  ((List.range (Nat.log 2 q.den + 1)).find? fun k => (q * 10 ^ k).den == 1).getD (Nat.log 2 q.den)

/-- `repr` of a finite float, as its exact expansion with at least one decimal. -/
def floatText (q : ℚ) : String := formatFixed (max 1 (decimals q)) q

/-- `f"{x:.{digits}f}"`. -/
def Float.format (digits : ℕ) : Float → String
  | .fin q => formatFixed digits q
  | x => x.nonFiniteText

/-- `f"{q:.{digits}%}"` for a finite float. -/
def formatPercent (digits : ℕ) (q : ℚ) : String := formatFixed digits (q * 100) ++ "%"

end Py

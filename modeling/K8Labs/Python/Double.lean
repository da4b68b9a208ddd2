import K8Labs.Python.General
import Mathlib.Algebra.Order.Field.Power
import Mathlib.Tactic.FieldSimp

/-!
# Floats with rounding

`toDouble` rounds a number to the nearest float, ties to even: 53 significant bits, the least
positive float `2 ^ -1074`, an infinity from `2 ^ 1024` on.

* `toDouble_of_eq_fin` : a float is not rounded again.
-/

namespace Py

/-- The exponent of the unit in the last place. -/
def ulpExponent (q : ℚ) : ℤ := max (Int.log 2 |q| - 52) (-1074)

theorem neg_le_ulpExponent (q : ℚ) : -1074 ≤ ulpExponent q := le_max_right _ _

/-- The float nearest to a number. -/
def toDouble (q : ℚ) : Float :=
  let ulp : ℚ := 2 ^ ulpExponent q
  let r := roundHalfEven (q / ulp) * ulp
  if |r| < 2 ^ 1024 then .fin r else if 0 < q then .inf else .negInf

/-- The float nearest to a number, unless it is an infinity. -/
def nearest (q : ℚ) : ℚ :=
  match toDouble q with
  | .fin r => r
  | _ => q

/-- The result of an operation on floats, rounded. -/
def Float.rounded : Float → Float
  | fin q => toDouble q
  | x => x

/-- `float` of a string. -/
def parseDouble (s : String) : Except Exc Float := (parseFloat s).map Float.rounded

theorem toDouble_eq_fin {q r : ℚ} : toDouble q = .fin r ↔
    roundHalfEven (q / 2 ^ ulpExponent q) * (2 : ℚ) ^ ulpExponent q = r ∧ |r| < 2 ^ 1024 := by
  unfold toDouble
  dsimp only
  constructor
  · intro h
    split_ifs at h with hlt
    cases h
    exact ⟨rfl, hlt⟩
  · rintro ⟨rfl, hlt⟩
    exact if_pos hlt

theorem nearest_of_eq_fin {q r : ℚ} (h : toDouble q = .fin r) : nearest q = r := by
  -- the equation of the definition would have the rounding evaluated
  delta nearest
  rw [h]

theorem nearest_of_ne_fin {q : ℚ} (h : ∀ r, toDouble q ≠ .fin r) : nearest q = q := by
  delta nearest
  split
  · next r hr => exact absurd hr (h r)
  · rfl

theorem nonneg_of_toDouble {q r : ℚ} (hq : 0 ≤ q) (h : toDouble q = .fin r) : 0 ≤ r := by
  obtain ⟨rfl, -⟩ := toDouble_eq_fin.1 h
  have hround : 0 ≤ roundHalfEven (q / 2 ^ ulpExponent q) := by
    refine le_roundHalfEven ?_
    rw [Int.cast_zero]
    positivity
  have : (0 : ℚ) ≤ roundHalfEven (q / 2 ^ ulpExponent q) := by exact_mod_cast hround
  positivity

theorem nonneg_nearest {q : ℚ} (hq : 0 ≤ q) : 0 ≤ nearest q := by
  by_cases h : ∃ r, toDouble q = .fin r
  · obtain ⟨r, h⟩ := h
    rw [nearest_of_eq_fin h]
    exact nonneg_of_toDouble hq h
  · rw [nearest_of_ne_fin (not_exists.1 h)]
    exact hq

/-! ### Floats are not rounded again -/

theorem exists_int_of_le {e e' : ℤ} (h : e' ≤ e) (k : ℤ) :
    ∃ m : ℤ, (k : ℚ) * 2 ^ e / 2 ^ e' = m := by
  obtain ⟨n, hn⟩ := Int.eq_ofNat_of_zero_le (sub_nonneg.2 h)
  refine ⟨k * 2 ^ n, ?_⟩
  rw [mul_div_assoc, ← zpow_sub₀ two_ne_zero, hn]
  rw [zpow_natCast]
  push_cast
  rfl

/-- In units of the last place a number has at most 53 bits. -/
theorem abs_roundHalfEven_ulp_le (q : ℚ) :
    |roundHalfEven (q / 2 ^ ulpExponent q)| ≤ 2 ^ 53 := by
  have hpos : (0 : ℚ) < 2 ^ ulpExponent q := by positivity
  have hlog : |q| < 2 ^ (Int.log 2 |q| + 1) := Int.lt_zpow_succ_log_self Nat.one_lt_two |q|
  have hexp : Int.log 2 |q| + 1 ≤ 53 + ulpExponent q := by
    have := le_max_left (Int.log 2 |q| - 52) (-1074)
    unfold ulpExponent
    omega
  have hq : |q| ≤ 2 ^ (53 : ℤ) * 2 ^ ulpExponent q := by
    rw [← zpow_add₀ two_ne_zero]
    exact hlog.le.trans (zpow_le_zpow_right₀ one_le_two hexp)
  obtain ⟨hlow, hhigh⟩ := abs_le.1 hq
  refine abs_le.2 ⟨le_roundHalfEven ?_, roundHalfEven_le ?_⟩
  · rw [le_div_iff₀ hpos]
    push_cast
    linarith
  · rw [div_le_iff₀ hpos]
    push_cast
    linarith

/-- A number of at most 53 bits is a whole number of its own units in the last place. -/
theorem exists_int_of_ulp {k e : ℤ} (hbits : |k| ≤ 2 ^ 53) (he : -1074 ≤ e) :
    ∃ m : ℤ, (k : ℚ) * 2 ^ e / 2 ^ ulpExponent (k * 2 ^ e) = m := by
  have hpos : (0 : ℚ) < 2 ^ e := by positivity
  by_cases hle : ulpExponent (k * 2 ^ e) ≤ e
  · exact exists_int_of_le hle k
  by_cases hzero : (k : ℚ) * 2 ^ e = 0
  · exact ⟨0, by rw [hzero, zero_div, Int.cast_zero]⟩
  -- otherwise the exponent is one more, and the number a power of two
  have habs : |(k : ℚ) * 2 ^ e| = |(k : ℚ)| * 2 ^ e := by rw [abs_mul, abs_of_pos hpos]
  have hkle : |(k : ℚ)| ≤ 2 ^ 53 := by exact_mod_cast hbits
  have hpow : (2 : ℚ) ^ 53 * 2 ^ e = 2 ^ (53 + e) := by
    rw [zpow_add₀ two_ne_zero]
    rfl
  have hlog : (2 : ℚ) ^ Int.log 2 |(k : ℚ) * 2 ^ e| ≤ |(k : ℚ) * 2 ^ e| :=
    Int.zpow_log_le_self Nat.one_lt_two (abs_pos.2 hzero)
  have hupper : |(k : ℚ) * 2 ^ e| ≤ 2 ^ (53 + e) := by
    rw [habs, ← hpow]
    gcongr
  have hlogle : Int.log 2 |(k : ℚ) * 2 ^ e| ≤ 53 + e :=
    (zpow_le_zpow_iff_right₀ one_lt_two).1 (hlog.trans hupper)
  have hup : ulpExponent (k * 2 ^ e) = e + 1 ∧ Int.log 2 |(k : ℚ) * 2 ^ e| = 53 + e := by
    rw [not_le] at hle
    unfold ulpExponent at hle ⊢
    omega
  rw [hup.2, ← hpow, habs] at hlog
  have hkge : (2 : ℚ) ^ 53 ≤ |(k : ℚ)| := le_of_mul_le_mul_right hlog hpos
  have hk : |k| = 2 ^ 53 := by exact_mod_cast le_antisymm hkle hkge
  have hhalf : ∃ m : ℤ, k = 2 * m := by
    rcases (abs_eq (by positivity)).1 hk with rfl | rfl
    · exact ⟨2 ^ 52, by norm_num⟩
    · exact ⟨-2 ^ 52, by norm_num⟩
  obtain ⟨m, hm⟩ := hhalf
  refine ⟨m, ?_⟩
  rw [hup.1, zpow_add_one₀ two_ne_zero, hm]
  field_simp
  push_cast
  ring

/-- **A float is not rounded again.** -/
theorem toDouble_of_eq_fin {q r : ℚ} (h : toDouble q = .fin r) : toDouble r = .fin r := by
  obtain ⟨rfl, hlt⟩ := toDouble_eq_fin.1 h
  refine toDouble_eq_fin.2 ⟨?_, hlt⟩
  obtain ⟨m, hm⟩ := exists_int_of_ulp (abs_roundHalfEven_ulp_le q) (neg_le_ulpExponent q)
  rw [hm, roundHalfEven_intCast, ← hm]
  exact div_mul_cancel₀ _ (by positivity)

end Py

import K8Labs.Python.Double

/-!
# Rounding to floats keeps the order

A float is its own rounding (`nearest_of_float`), so what is at least a float is at least that float
after rounding (`le_nearest`), and the rounding is within half a unit in the last place
(`abs_nearest_sub_le`).  Above one the least float is `1 + 2 ^ -52` (`one_add_le_nearest`).
-/

namespace Py

/-- A number rounded to a whole number of its units in the last place. -/
def toUlps (q : ℚ) : ℚ := roundHalfEven (q / 2 ^ ulpExponent q) * 2 ^ ulpExponent q

theorem nearest_eq (q : ℚ) : nearest q = if |toUlps q| < 2 ^ 1024 then toUlps q else q := by
  split_ifs with h
  · exact nearest_of_eq_fin (toDouble_eq_fin.2 ⟨rfl, h⟩)
  · refine nearest_of_ne_fin fun r hr => ?_
    obtain ⟨rfl, hlt⟩ := toDouble_eq_fin.1 hr
    exact h hlt

theorem nearest_cases (q : ℚ) : nearest q = toUlps q ∨ nearest q = q := by
  rw [nearest_eq]
  split_ifs
  · exact .inl rfl
  · exact .inr rfl

theorem nearest_of_float {k e : ℤ} (hbits : |k| ≤ 2 ^ 53) (he : -1074 ≤ e) :
    nearest (k * 2 ^ e) = k * 2 ^ e := by
  rcases nearest_cases (k * 2 ^ e) with h | h
  · obtain ⟨m, hm⟩ := exists_int_of_ulp hbits he
    rw [h, toUlps, hm, roundHalfEven_intCast, ← hm]
    exact div_mul_cancel₀ _ (by positivity)
  · exact h

theorem nearest_intCast {n : ℤ} (h : |n| ≤ 2 ^ 53) : nearest (n : ℚ) = n := by
  simpa using nearest_of_float h (e := 0) (by omega)

theorem ulpExponent_mono {p q : ℚ} (hp : 0 < |p|) (h : |p| ≤ |q|) : ulpExponent p ≤ ulpExponent q :=
  max_le_max (sub_le_sub_right (Int.log_mono_right hp h) 52) le_rfl

/-- A float below the unit in the last place of a number is at most the power of two there. -/
theorem abs_float_le {k e : ℤ} {q : ℚ} (hbits : |k| ≤ 2 ^ 53) (he : -1074 ≤ e) (hq : q ≠ 0)
    (hlt : e < ulpExponent q) :
    |(k : ℚ) * 2 ^ e| ≤ 2 ^ 52 * 2 ^ ulpExponent q ∧ 2 ^ 52 * 2 ^ ulpExponent q ≤ |q| := by
  have hu : ulpExponent q = Int.log 2 |q| - 52 := by
    unfold ulpExponent at hlt ⊢
    omega
  have hk : |(k : ℚ)| ≤ 2 ^ 53 := by exact_mod_cast hbits
  constructor
  · calc |(k : ℚ) * 2 ^ e| = |(k : ℚ)| * 2 ^ e := by rw [abs_mul, abs_of_pos (zpow_pos two_pos e : (0 : ℚ) < 2 ^ e)]
      _ ≤ 2 ^ 53 * 2 ^ (ulpExponent q - 1) := by
        gcongr
        · exact one_le_two
        · omega
      _ = 2 ^ 52 * 2 ^ ulpExponent q := by
        rw [zpow_sub_one₀ two_ne_zero]
        ring
  · have hlog : (2 : ℚ) ^ Int.log 2 |q| ≤ |q| :=
      Int.zpow_log_le_self Nat.one_lt_two (abs_pos.2 hq)
    calc (2 : ℚ) ^ 52 * 2 ^ ulpExponent q = 2 ^ Int.log 2 |q| := by
          rw [hu, ← zpow_natCast, ← zpow_add₀ two_ne_zero]
          congr 1
          push_cast
          ring
      _ ≤ |q| := hlog

/-- **What is at least a float is at least that after rounding.** -/
theorem le_nearest {k e : ℤ} {q : ℚ} (hbits : |k| ≤ 2 ^ 53) (he : -1074 ≤ e)
    (h : (k : ℚ) * 2 ^ e ≤ q) : (k : ℚ) * 2 ^ e ≤ nearest q := by
  rcases h.eq_or_lt with rfl | hlt
  · exact (nearest_of_float hbits he).ge
  rcases nearest_cases q with hround | hself
  swap
  · exact h.trans hself.ge
  have hpos : (0 : ℚ) < 2 ^ ulpExponent q := by positivity
  rw [hround, toUlps, ← div_le_iff₀ hpos]
  by_cases hle : ulpExponent q ≤ e
  · -- the float is a whole number of units
    obtain ⟨m, hm⟩ := exists_int_of_le hle k
    rw [hm]
    refine Int.cast_le.2 (le_roundHalfEven ?_)
    rw [← hm]
    gcongr
  by_cases hq : q = 0
  · subst hq
    rw [zero_div, show roundHalfEven 0 = 0 from roundHalfEven_intCast 0, Int.cast_zero]
    exact (div_neg_of_neg_of_pos hlt hpos).le
  · obtain ⟨hfloat, hpower⟩ := abs_float_le hbits he hq (not_le.1 hle)
    have hqpos : 0 < q := by
      by_contra hneg
      have habs : |q| = -q := abs_of_nonpos (not_lt.1 hneg)
      have := neg_abs_le ((k : ℚ) * 2 ^ e)
      linarith
    rw [abs_of_pos hqpos] at hpower
    have hfirst : ((2 ^ 52 : ℤ) : ℚ) ≤ q / 2 ^ ulpExponent q := by
      rw [le_div_iff₀ hpos]
      push_cast
      exact hpower
    calc (k : ℚ) * 2 ^ e / 2 ^ ulpExponent q ≤ 2 ^ 52 := by
          rw [div_le_iff₀ hpos]
          exact (le_abs_self _).trans hfloat
      _ ≤ roundHalfEven (q / 2 ^ ulpExponent q) := by exact_mod_cast le_roundHalfEven hfirst

/-- The rounding is symmetric. -/
theorem roundHalfEven_neg (q : ℚ) : roundHalfEven (-q) = -roundHalfEven q := by
  by_cases hint : ∃ n : ℤ, q = n
  · obtain ⟨n, rfl⟩ := hint
    rw [← Int.cast_neg, roundHalfEven_intCast, roundHalfEven_intCast]
  have hfloor : ⌊-q⌋ = -⌊q⌋ - 1 := by
    rw [Int.floor_eq_iff]
    have hle := Int.floor_le q
    have hlt := Int.lt_floor_add_one q
    have hne : (⌊q⌋ : ℚ) ≠ q := fun h => hint ⟨_, h.symm⟩
    push_cast
    exact ⟨by linarith, by linarith [lt_of_le_of_ne hle hne]⟩
  unfold roundHalfEven
  rw [hfloor]
  push_cast
  split_ifs <;> first | omega | (exfalso; linarith)

theorem toUlps_neg (q : ℚ) : toUlps (-q) = -toUlps q := by
  have hulp : ulpExponent (-q) = ulpExponent q := by rw [ulpExponent, ulpExponent, abs_neg]
  rw [toUlps, hulp, neg_div, roundHalfEven_neg, Int.cast_neg, neg_mul, toUlps]

theorem nearest_neg (q : ℚ) : nearest (-q) = -nearest q := by
  rw [nearest_eq, nearest_eq, toUlps_neg, abs_neg]
  split_ifs <;> rfl

/-- **What is at most a float is at most that after rounding.** -/
theorem nearest_le {k e : ℤ} {q : ℚ} (hbits : |k| ≤ 2 ^ 53) (he : -1074 ≤ e)
    (h : q ≤ (k : ℚ) * 2 ^ e) : nearest q ≤ (k : ℚ) * 2 ^ e := by
  have hneg := le_nearest (k := -k) (q := -q) (by rwa [abs_neg]) he (by push_cast; linarith)
  rw [nearest_neg] at hneg
  push_cast at hneg
  linarith

/-- The rounding is within half a unit in the last place. -/
theorem abs_toUlps_sub_le (q : ℚ) : |toUlps q - q| ≤ 2 ^ ulpExponent q / 2 := by
  have hpos : (0 : ℚ) < 2 ^ ulpExponent q := by positivity
  calc |toUlps q - q|
      = |((roundHalfEven (q / 2 ^ ulpExponent q) : ℚ) - q / 2 ^ ulpExponent q) *
          2 ^ ulpExponent q| := by
        rw [sub_mul, div_mul_cancel₀ _ hpos.ne', toUlps]
    _ = |(roundHalfEven (q / 2 ^ ulpExponent q) : ℚ) - q / 2 ^ ulpExponent q| *
          2 ^ ulpExponent q := by rw [abs_mul, abs_of_pos hpos]
    _ ≤ 1 / 2 * 2 ^ ulpExponent q := by
        gcongr
        exact abs_roundHalfEven_sub_le _
    _ = 2 ^ ulpExponent q / 2 := by ring

theorem abs_nearest_sub_le (q : ℚ) : |nearest q - q| ≤ 2 ^ ulpExponent q / 2 := by
  rcases nearest_cases q with h | h
  · rw [h]
    exact abs_toUlps_sub_le q
  · rw [h, sub_self, abs_zero]
    positivity

/-- Numbers of at most a thousand bits are far from an infinity. -/
theorem abs_toUlps_lt {q : ℚ} (h : |q| ≤ 2 ^ 1000) : |toUlps q| < 2 ^ 1024 := by
  have hulp : ulpExponent q ≤ 1000 := by
    by_cases hq : q = 0
    · rw [hq, ulpExponent, abs_zero, Int.log_zero_right]
      omega
    · have hlog : (2 : ℚ) ^ Int.log 2 |q| ≤ 2 ^ (1000 : ℤ) :=
        (Int.zpow_log_le_self Nat.one_lt_two (abs_pos.2 hq)).trans h
      have := (zpow_le_zpow_iff_right₀ one_lt_two).1 hlog
      unfold ulpExponent
      omega
  have hpow : (2 : ℚ) ^ ulpExponent q ≤ 2 ^ (1000 : ℤ) := zpow_le_zpow_right₀ one_le_two hulp
  calc |toUlps q| = |toUlps q - q + q| := by rw [sub_add_cancel]
    _ ≤ |toUlps q - q| + |q| := abs_add_le _ _
    _ ≤ 2 ^ ulpExponent q / 2 + 2 ^ 1000 := add_le_add (abs_toUlps_sub_le q) h
    _ ≤ 2 ^ 1000 / 2 + 2 ^ 1000 := by
      gcongr
      exact hpow
    _ < 4 * 2 ^ 1000 := by
      have hpos : (0 : ℚ) < 2 ^ 1000 := by positivity
      generalize (2 : ℚ) ^ 1000 = x at hpos
      linarith
    _ ≤ 2 ^ 1024 := by
      rw [show (4 : ℚ) = 2 ^ 2 by norm_num, ← pow_add]
      exact pow_le_pow_right₀ one_le_two (by omega)

theorem nearest_eq_toUlps {q : ℚ} (h : |q| ≤ 2 ^ 1000) : nearest q = toUlps q := by
  rw [nearest_eq, if_pos (abs_toUlps_lt h)]

theorem toDouble_eq_nearest {q : ℚ} (h : |q| ≤ 2 ^ 1000) : toDouble q = .fin (nearest q) :=
  toDouble_eq_fin.2 ⟨(nearest_eq_toUlps h).symm, by rw [nearest_eq_toUlps h]; exact abs_toUlps_lt h⟩

theorem toDouble_intCast {n : ℤ} (h : |n| ≤ 2 ^ 53) : toDouble (n : ℚ) = .fin n := by
  have hsmall : |(n : ℚ)| ≤ 2 ^ 1000 := by
    have hbits : |(n : ℚ)| ≤ 2 ^ 53 := by exact_mod_cast h
    exact hbits.trans (pow_le_pow_right₀ one_le_two (by omega))
  rw [toDouble_eq_nearest hsmall, nearest_intCast h]

/-- A whole number of units that is less than half a unit above a number is not above its float. -/
theorem units_le_nearest {m : ℤ} {q : ℚ} (hsmall : |q| ≤ 2 ^ 1000)
    (h : (m : ℚ) * 2 ^ ulpExponent q - q < 2 ^ ulpExponent q / 2) :
    (m : ℚ) * 2 ^ ulpExponent q ≤ nearest q := by
  have hpos : (0 : ℚ) < 2 ^ ulpExponent q := by positivity
  have hclose := (abs_le.1 (abs_roundHalfEven_sub_le (q / 2 ^ ulpExponent q))).1
  have hlt : (m : ℚ) - q / 2 ^ ulpExponent q < 1 / 2 := by
    rw [← mul_lt_mul_iff_of_pos_right hpos, sub_mul, div_mul_cancel₀ _ hpos.ne']
    linarith
  have hint : (m : ℚ) < roundHalfEven (q / 2 ^ ulpExponent q) + 1 := by linarith
  have hle : m ≤ roundHalfEven (q / 2 ^ ulpExponent q) :=
    Int.lt_add_one_iff.1 (by exact_mod_cast hint)
  rw [nearest_eq_toUlps hsmall, toUlps]
  gcongr

/-! ### Large floats -/

/-- A number that rounds to less than `2 ^ 63` is far from an infinity. -/
theorem le_of_nearest_lt {q : ℚ} (h : nearest q < 2 ^ 63) : q ≤ 2 ^ 1000 := by
  by_contra hbig
  have hround := le_nearest (k := 1) (e := (1000 : ℕ)) (by norm_num) (by omega) (q := q)
    (by rw [Int.cast_one, one_mul, zpow_natCast]; exact (not_le.1 hbig).le)
  rw [Int.cast_one, one_mul, zpow_natCast] at hround
  have hlarge : (2 : ℚ) ^ 63 ≤ 2 ^ 1000 := pow_le_pow_right₀ one_le_two (by omega)
  exact absurd (hlarge.trans hround) (not_le.2 h)

/-- From `2 ^ 52` on the float of a number has all bits of its mantissa before the point. -/
theorem exists_mantissa {q : ℚ} (hlarge : 2 ^ 52 ≤ q) (hsmall : q ≤ 2 ^ 1000) :
    ∃ m u : ℤ, nearest q = m * 2 ^ u ∧ 2 ^ 52 ≤ m ∧ m ≤ 2 ^ 53 ∧ 0 ≤ u ∧
      q ≤ m * 2 ^ u + 2 ^ u / 2 := by
  have hpos : 0 < q := lt_of_lt_of_le (by positivity) hlarge
  have habs : |q| = q := abs_of_pos hpos
  have hlog : 52 ≤ Int.log 2 |q| := by
    rw [habs, ← Int.zpow_le_iff_le_log Nat.one_lt_two hpos]
    exact_mod_cast hlarge
  have hulp : Int.log 2 |q| = ulpExponent q + 52 := by
    rw [ulpExponent, max_eq_left (by omega), sub_add_cancel]
  have hread : nearest q = roundHalfEven (q / 2 ^ ulpExponent q) * 2 ^ ulpExponent q :=
    nearest_eq_toUlps (habs.trans_le hsmall)
  refine ⟨_, _, hread, ?_, (le_abs_self _).trans (abs_roundHalfEven_ulp_le q), by omega, ?_⟩
  · refine le_roundHalfEven ?_
    rw [le_div_iff₀ (by positivity)]
    calc ((2 ^ 52 : ℤ) : ℚ) * 2 ^ ulpExponent q = 2 ^ Int.log 2 |q| := by
          rw [hulp, add_comm, zpow_add₀ two_ne_zero]
          norm_num
      _ ≤ q := by
          rw [habs]
          exact Int.zpow_log_le_self Nat.one_lt_two hpos
  · have hclose := (abs_le.1 (abs_nearest_sub_le q)).1
    rw [hread] at hclose
    linarith

/-- Between half a unit and the least factor above one there is a float, in units twice as large when
the mantissa is full. -/
theorem exists_float_above {m u : ℤ} (hlow : 2 ^ 52 ≤ m) (hhigh : m ≤ 2 ^ 53) (hu : 0 ≤ u) :
    ∃ k e : ℤ, |k| ≤ 2 ^ 53 ∧ 0 ≤ e ∧ (m : ℚ) * 2 ^ u + 2 ^ u / 2 < k * 2 ^ e ∧
      (k : ℚ) * 2 ^ e ≤ m * 2 ^ u * (1 + 1 / 2 ^ 52) := by
  have hpos : (0 : ℚ) < 2 ^ u := by positivity
  have hexpand : (m : ℚ) * 2 ^ u * (1 + 1 / 2 ^ 52) = m * 2 ^ u + m * 2 ^ u / 2 ^ 52 := by ring
  rw [hexpand]
  by_cases hfull : m = 2 ^ 53
  · rw [hfull]
    refine ⟨2 ^ 52 + 1, u + 1, by norm_num, by omega, ?_, ?_⟩ <;>
      rw [zpow_add_one₀ two_ne_zero] <;> push_cast <;> linarith
  · refine ⟨m + 1, u, ?_, hu, ?_, ?_⟩
    · rw [abs_of_nonneg (by omega)]
      omega
    · push_cast
      linarith
    · have hm : (2 : ℚ) ^ 52 ≤ m := by exact_mod_cast hlow
      have hstep : (2 : ℚ) ^ u ≤ m * 2 ^ u / 2 ^ 52 := by
        rw [le_div_iff₀ (by positivity), mul_comm]
        gcongr
      push_cast
      linarith

/-- Below `2 ^ 53` the unit in the last place is at most one. -/
theorem ulpExponent_nonpos {q : ℚ} (hq : 0 < q) (h : q < 2 ^ 53) : ulpExponent q ≤ 0 := by
  have hlog := (Int.lt_zpow_iff_log_lt Nat.one_lt_two hq).1
    (h.trans_eq (zpow_natCast 2 53).symm)
  rw [ulpExponent, abs_of_pos hq]
  push_cast at hlog
  omega

/-- The least float above one. -/
theorem one_add_le_nearest {q : ℚ} (h : 1 < nearest q) : 1 + 1 / 2 ^ 52 ≤ nearest q := by
  have hone : 1 < q := by
    by_contra hle
    have hround := nearest_le (k := 1) (e := 0) (by norm_num) (by norm_num)
      (show q ≤ (1 : ℤ) * 2 ^ (0 : ℤ) by simpa using hle)
    rw [zpow_zero, Int.cast_one, mul_one] at hround
    exact absurd h (not_lt.2 hround)
  by_cases hbig : 2 ≤ q
  · have hround := le_nearest (k := 2) (e := 0) (by norm_num) (by norm_num)
      (show (2 : ℤ) * 2 ^ (0 : ℤ) ≤ q by simpa using hbig)
    norm_num at hround ⊢
    linarith
  have hsmall : |q| ≤ 2 ^ 1000 := by
    rw [abs_of_pos (by positivity)]
    exact (not_le.1 hbig).le.trans (le_self_pow₀ one_le_two (by omega))
  have hulp : -52 ≤ ulpExponent q := by
    have hlog : 0 ≤ Int.log 2 |q| := by
      rw [← Int.zpow_le_iff_le_log Nat.one_lt_two (abs_pos.2 (by positivity)), zpow_zero,
        abs_of_pos (by positivity)]
      exact hone.le
    exact le_max_of_le_left (by omega)
  -- the float is a whole number of these
  obtain ⟨n, hn⟩ := exists_int_of_le hulp (roundHalfEven (q / 2 ^ ulpExponent q))
  have hunits : nearest q = n * (2 : ℚ) ^ (-52 : ℤ) := by
    rw [nearest_eq_toUlps hsmall, toUlps, ← hn, div_mul_cancel₀ _ (by positivity)]
  have hstep : (2 : ℚ) ^ (-52 : ℤ) = 1 / 2 ^ 52 := by norm_num
  rw [hunits, hstep, mul_one_div] at h ⊢
  rw [lt_div_iff₀ (by positivity), one_mul] at h
  rw [le_div_iff₀ (by positivity), add_mul, div_mul_cancel₀ _ (by positivity), one_mul]
  exact_mod_cast Int.add_one_le_iff.2 (show (2 ^ 52 : ℤ) < n by exact_mod_cast h)

end Py

import K8Labs.LinuxSched.Calibrate

/-!
# The end of the rate sweep

The first loop of `cmd_calibrate` probes a rate, and goes on with the product of the rate and the
factor, truncated by `awk`.  Nothing else bounds it when every probe passes.

`sweepEnds_iff` is the result: **whatever `awk` prints for more than 64 bits, the sweep rises with
every probe and ends, if and only if it starts above the maximum, or its first product is above the
start and the second, unless past the maximum, above the first, and the product that is past the
maximum is below `2 ^ 63`.**  At small rates the truncation takes the whole step away
(`stays_at_one`): a rate of one stays at one with the default factor.  Once a truncated product has
risen the next ones rise (`rises_of_rises`), as the step grows with the rate faster than the
rounding.  A product from `2 ^ 63` on is a negative number to the shell, and never past the maximum.
-/

namespace LinuxSched

namespace Calibrate

open Py

namespace Settings

variable (s : Settings)

/-- The same sweep when every probe passes. -/
def allPassing : Settings := { s with p99 := fun _ => s.p99Target }

/-- The sweep rises at every probe, and ends. -/
structure SweepEnds : Prop where
  rises : ∀ rate best csv, s.allPassing.Reaches s.initial ⟨.sweep rate best, csv⟩ →
    shell rate ≤ shell s.sweepMax → ∃ next, s.printedRate rate = some next ∧ rate < next
  ends : ∃ x, s.allPassing.Reaches s.initial x ∧ s.allPassing.step x = none

theorem passes_allPassing (rate : ℤ) : s.allPassing.passes rate = true := by
  have hle : ∀ x : Py.Float, x ≠ .nan → x.le x = true := by
    intro x hx
    simp [Py.Float.le, hx]
  refine hle _ ?_
  unfold toDouble
  dsimp only
  split_ifs <;> exact fun h => by cases h

end Settings

/-! ### Truncated products -/

section Products

variable {factor : ℚ} {rate rate' : ℤ}

theorem lt_nextRate_iff (hfactor : 0 ≤ factor) (hrate : 0 ≤ rate) :
    rate < nextRate factor rate ↔ ((rate + 1 : ℤ) : ℚ) ≤ nearest (nearest rate * nearest factor) := by
  rw [nextRate_eq_floor hfactor hrate, ← Int.add_one_le_iff, Int.le_floor]

/-- From `2 ^ 52` on the product with any float above one is at least one unit in the last place more
than the rate. -/
theorem rises_of_large (hfactor : 0 ≤ factor) (hone : 1 < nearest factor) (hlarge : 2 ^ 52 ≤ rate)
    (hbelow : rate < 2 ^ 63) : rate < nextRate factor rate := by
  rw [lt_nextRate_iff hfactor (by omega)]
  have hsmall : (rate : ℚ) ≤ 2 ^ 1000 :=
    (by exact_mod_cast hbelow.le : (rate : ℚ) ≤ 2 ^ 63).trans
      (pow_le_pow_right₀ one_le_two (by omega))
  -- the rate as awk reads it, and the next float behind the rate
  obtain ⟨m, u, hread, hlow, hhigh, hu, hclose⟩ :=
    exists_mantissa (by exact_mod_cast hlarge : (2 : ℚ) ^ 52 ≤ rate) hsmall
  obtain ⟨k, e, hbits, he, habove, hnext⟩ := exists_float_above hlow hhigh hu
  have hle : (k : ℚ) * 2 ^ e ≤ nearest rate * nearest factor := by
    have hleast := one_add_le_nearest hone
    have hm : (0 : ℚ) ≤ m := by exact_mod_cast (by omega : 0 ≤ m)
    calc (k : ℚ) * 2 ^ e ≤ m * 2 ^ u * (1 + 1 / 2 ^ 52) := hnext
      _ ≤ nearest rate * nearest factor := by
        rw [hread]
        gcongr
  obtain ⟨n, rfl⟩ := Int.eq_ofNat_of_zero_le he
  have hint : rate < k * 2 ^ n := by exact_mod_cast hclose.trans_lt habove
  calc ((rate + 1 : ℤ) : ℚ) ≤ (k * 2 ^ n : ℤ) := Int.cast_le.2 hint
    _ = k * 2 ^ (n : ℤ) := by push_cast; rfl
    _ ≤ nearest (nearest rate * nearest factor) := le_nearest hbits (by omega) hle

/-- Below `2 ^ 53` a later rate gains more over its product than an earlier one. -/
theorem rises_of_small (hfactor : 0 ≤ factor) (hone : 1 < nearest factor) (hrate : 0 ≤ rate)
    (hrises : rate < nextRate factor rate) (hle : rate ≤ rate') (hsmall : rate' < 2 ^ 53) :
    rate' < nextRate factor rate' := by
  rw [lt_nextRate_iff hfactor hrate] at hrises
  rw [lt_nextRate_iff hfactor (hrate.trans hle)]
  have hbits : ∀ n : ℤ, 0 ≤ n → n ≤ 2 ^ 53 → |n| ≤ 2 ^ 53 := fun n h h' => by rwa [abs_of_nonneg h]
  rw [nearest_intCast (hbits _ hrate (by omega))] at hrises
  rw [nearest_intCast (hbits _ (hrate.trans hle) (by omega))]
  set f := nearest factor
  rcases hle.eq_or_lt with rfl | hlt
  · exact hrises
  by_cases hstep : ((rate' + 1 : ℤ) : ℚ) ≤ rate' * f
  · have := le_nearest (k := rate' + 1) (e := 0) (hbits _ (by omega) (by omega)) (by omega)
      (q := rate' * f) (by rwa [zpow_zero, mul_one])
    rwa [zpow_zero, mul_one] at this
  -- both products are just below the next integer, the later one nearer to it
  have hpos : 0 < (rate : ℚ) := by
    by_contra hzero
    have hrate0 : rate = 0 := le_antisymm (by exact_mod_cast not_lt.1 hzero) hrate
    have hzero : nearest 0 = 0 := by exact_mod_cast nearest_intCast (n := 0) (by norm_num)
    rw [hrate0, Int.cast_zero, zero_mul, hzero] at hrises
    norm_num at hrises
  have hltq : (rate : ℚ) < rate' := by exact_mod_cast hlt
  have hproducts : (rate : ℚ) * f ≤ rate' * f := by gcongr
  have hppos : 0 < (rate : ℚ) * f := by positivity
  have hround := (abs_le.1 (abs_nearest_sub_le ((rate : ℚ) * f))).2
  set u := ulpExponent ((rate' : ℚ) * f) with hu
  have hulp : (2 : ℚ) ^ ulpExponent ((rate : ℚ) * f) ≤ 2 ^ u := by
    refine zpow_le_zpow_right₀ one_le_two (ulpExponent_mono (abs_pos.2 hppos.ne') ?_)
    rwa [abs_of_pos hppos, abs_of_pos (hppos.trans_le hproducts)]
  have hbelow : (rate' : ℚ) * f < 2 ^ 53 :=
    (not_le.1 hstep).trans_le (by exact_mod_cast (by omega : rate' + 1 ≤ 2 ^ 53))
  obtain ⟨m, hm⟩ :=
    exists_int_of_le (ulpExponent_nonpos (hppos.trans_le hproducts) hbelow) (rate' + 1)
  have hunits : (m : ℚ) * 2 ^ u = (rate' + 1 : ℤ) := by
    rw [← hm, div_mul_cancel₀ _ (by positivity), zpow_zero, mul_one]
  rw [← hunits]
  refine units_le_nearest ?_ ?_
  · rw [abs_of_pos (hppos.trans_le hproducts)]
    exact hbelow.le.trans (pow_le_pow_right₀ one_le_two (by omega))
  · rw [← hu, hunits]
    have hgain : 0 < ((rate' : ℚ) - rate) * (f - 1) := mul_pos (sub_pos.2 hltq) (sub_pos.2 hone)
    push_cast at hrises ⊢
    linarith

/-- A float with something behind the point is at most `2 ^ 53`. -/
theorem float_le {m u : ℤ} (hbits : |m| ≤ 2 ^ 53) (hu : u ≤ 0) :
    (m : ℚ) * 2 ^ u ≤ (2 ^ 53 : ℤ) := by
  have hm : (m : ℚ) ≤ (2 ^ 53 : ℤ) := Int.cast_le.2 ((le_abs_self m).trans hbits)
  calc (m : ℚ) * 2 ^ u ≤ (2 ^ 53 : ℤ) * 2 ^ (0 : ℤ) := by
        gcongr
        · exact one_le_two
    _ = (2 ^ 53 : ℤ) := by rw [zpow_zero, mul_one]

/-- A truncated product is a whole float. -/
theorem nextRate_float (hfactor : 0 ≤ factor) (hrate : 0 ≤ rate)
    (hbelow : nextRate factor rate < 2 ^ 63) :
    ∃ k e : ℤ, |k| ≤ 2 ^ 53 ∧ 0 ≤ e ∧ (nextRate factor rate : ℚ) = k * 2 ^ e := by
  set q := nearest (rate : ℚ) * nearest factor with hq
  have hqnonneg : 0 ≤ q := nonneg_product hfactor hrate
  rw [nextRate_eq_floor hfactor hrate, ← hq] at hbelow ⊢
  have hfloor : 0 ≤ ⌊nearest q⌋ := Int.floor_nonneg.2 (nonneg_nearest hqnonneg)
  by_cases hsmall : ⌊nearest q⌋ ≤ 2 ^ 53
  · exact ⟨⌊nearest q⌋, 0, by rwa [abs_of_nonneg hfloor], le_rfl, by rw [zpow_zero, mul_one]⟩
  -- a float of that size is whole
  have hqle : |q| ≤ 2 ^ 1000 := by
    rw [abs_of_nonneg hqnonneg]
    refine le_of_nearest_lt ?_
    exact_mod_cast Int.floor_lt.1 hbelow
  have hfloat := nearest_eq_toUlps hqle
  rw [toUlps] at hfloat
  set u := ulpExponent q
  set m := roundHalfEven (q / 2 ^ u)
  have hbits : |m| ≤ 2 ^ 53 := abs_roundHalfEven_ulp_le q
  have hu : 0 ≤ u := by
    by_contra hneg
    have hle : nearest q ≤ (2 ^ 53 : ℤ) := hfloat.trans_le (float_le hbits (not_le.1 hneg).le)
    exact hsmall (Int.cast_le.1 ((Int.floor_le _).trans hle))
  refine ⟨m, u, hbits, hu, ?_⟩
  obtain ⟨n, hn⟩ := Int.eq_ofNat_of_zero_le hu
  rw [hfloat, hn]
  have hint : (m : ℚ) * 2 ^ (n : ℤ) = ((m * 2 ^ n : ℤ) : ℚ) := by push_cast; rfl
  rw [hint, Int.floor_intCast]

/-- A rate that awk reads as it is rises only with a float above one. -/
theorem one_lt_of_rises {k e : ℤ} (hfactor : 0 ≤ factor) (hrate : 0 ≤ rate) (hbits : |k| ≤ 2 ^ 53)
    (he : 0 ≤ e) (hfloat : (rate : ℚ) = k * 2 ^ e) (hrises : rate < nextRate factor rate) :
    1 < nearest factor := by
  rw [lt_nextRate_iff hfactor hrate] at hrises
  by_contra hle
  have hread : nearest (rate : ℚ) = rate := by rw [hfloat, nearest_of_float hbits (by omega)]
  have hproduct : nearest (rate : ℚ) * nearest factor ≤ k * 2 ^ e := by
    rw [hread, ← hfloat]
    exact mul_le_of_le_one_right (by exact_mod_cast hrate) (not_lt.1 hle)
  have hround := nearest_le hbits (by omega) hproduct
  rw [← hfloat] at hround
  push_cast at hrises
  linarith

/-- **A truncated product that rises is followed by products that rise.** -/
theorem rises_of_rises {k e : ℤ} (hfactor : 0 ≤ factor) (hrate : 0 ≤ rate) (hbits : |k| ≤ 2 ^ 53)
    (he : 0 ≤ e) (hfloat : (rate : ℚ) = k * 2 ^ e) (hrises : rate < nextRate factor rate)
    (hle : rate ≤ rate') (hbelow : rate' < 2 ^ 63) : rate' < nextRate factor rate' := by
  have hone := one_lt_of_rises hfactor hrate hbits he hfloat hrises
  by_cases hsmall : rate' < 2 ^ 53
  · exact rises_of_small hfactor hone hrate hrises hle hsmall
  · exact rises_of_large hfactor hone (by omega) hbelow

end Products

/-! ### The sweep -/

section Sweep

variable {s : Settings}

/-- Where the sweep starts well: it is past the maximum, or rises at once and again. -/
def RisesTwice (s : Settings) : Prop :=
  shell s.sweepMax < s.sweepStart ∨
    s.sweepStart < nextRate s.sweepFactor s.sweepStart ∧
      (shell s.sweepMax < nextRate s.sweepFactor s.sweepStart ∨
        nextRate s.sweepFactor s.sweepStart <
          nextRate s.sweepFactor (nextRate s.sweepFactor s.sweepStart))

/-- The products one after another, in integers of any size. -/
def Settings.product (s : Settings) : ℕ → ℤ
  | 0 => s.sweepStart
  | n + 1 => nextRate s.sweepFactor (s.product n)

/-- The first product past the maximum is an integer of the shell as well. -/
def StaysBelow (s : Settings) : Prop :=
  ∀ n, (∀ i ≤ n, s.product i ≤ shell s.sweepMax) → s.product (n + 1) < 2 ^ 63

/-- A sweep in which every probe passes goes from a rate to the next, as long as one is printed. -/
theorem step_allPassing {rate next : ℤ} {best : Option ℤ} {csv : List ℤ}
    (hmax : shell rate ≤ shell s.sweepMax) (hnext : s.printedRate rate = some next) :
    s.allPassing.step ⟨.sweep rate best, csv⟩ = some ⟨.sweep next (some rate), csv ++ [rate]⟩ := by
  have hprobed : shell rate ≤ shell s.allPassing.sweepMax := hmax
  have hprinted : s.allPassing.printedRate rate = some next := hnext
  unfold Settings.step
  dsimp only
  rw [if_pos hprobed, s.passes_allPassing, if_pos rfl, hprinted]

theorem step_past {rate : ℤ} {best : Option ℤ} {csv : List ℤ} (hmax : shell s.sweepMax < shell rate) :
    s.allPassing.step ⟨.sweep rate best, csv⟩ = some ⟨Settings.settle best, csv⟩ := by
  have hpast : ¬shell rate ≤ shell s.allPassing.sweepMax := not_le.2 hmax
  unfold Settings.step
  dsimp only
  rw [if_neg hpast]

theorem product_nonneg (s : Settings) : ∀ n, 0 ≤ s.product n
  | 0 => s.start_nonneg
  | n + 1 => nextRate_nonneg s.factor_nonneg (product_nonneg s n)

/-- Up to 64 bits the product itself is printed, and no smaller number beyond. -/
theorem printedRate_eq {rate : ℤ} (hrate : 0 ≤ rate) :
    (nextRate s.sweepFactor rate < 2 ^ 64 →
        s.printedRate rate = some (nextRate s.sweepFactor rate)) ∧
      (2 ^ 64 ≤ nextRate s.sweepFactor rate →
        s.printedRate rate = s.awk.large (nearest (nearest rate * nearest s.sweepFactor))) := by
  unfold Settings.printedRate
  dsimp only
  rw [nextRate_eq_floor s.factor_nonneg hrate, Int.floor_lt, Int.le_floor]
  push_cast
  exact ⟨fun h => if_pos h, fun h => if_neg (not_lt.2 h)⟩

/-- The products before the first one past the maximum rise, and are at least the first. -/
theorem product_lt (h : RisesTwice s) : ∀ n, (∀ i ≤ n, s.product i ≤ shell s.sweepMax) →
    s.product 1 ≤ s.product (n + 1) ∧ s.product n < s.product (n + 1) := by
  intro n hle
  induction n with
  | zero => exact ⟨le_rfl, (h.resolve_left (not_lt.2 (hle 0 le_rfl))).1⟩
  | succ n ih =>
    obtain ⟨hfirst, -⟩ := ih fun i hi => hle i (by omega)
    obtain ⟨-, hsecond⟩ := h.resolve_left (not_lt.2 (hle 0 (by omega)))
    have hbelow : s.product (n + 1) < 2 ^ 63 := (hle _ le_rfl).trans_lt (shell_range _).2
    have hnonneg := product_nonneg s 1
    obtain ⟨k, e, hbits, he, hfloat⟩ :=
      nextRate_float s.factor_nonneg s.start_nonneg (hfirst.trans_lt hbelow)
    have hrises := rises_of_rises s.factor_nonneg hnonneg hbits he hfloat
      (hsecond.resolve_left (not_lt.2 (hle 1 (by omega)))) hfirst hbelow
    exact ⟨hfirst.trans hrises.le, hrises⟩

/-- The rates of the sweep: a product, up to which none is past the maximum. -/
def OnSweep (s : Settings) (rate : ℤ) : Prop :=
  ∃ n, rate = s.product n ∧ ∀ i < n, s.product i ≤ shell s.sweepMax

/-- The shell reads a rate of the sweep as it is. -/
theorem OnSweep.shell_eq (h : StaysBelow s) {rate : ℤ} (hrate : OnSweep s rate) : shell rate = rate := by
  obtain ⟨n, rfl, hle⟩ := hrate
  have hnonneg := product_nonneg s n
  refine Calibrate.shell_eq (by omega) ?_
  cases n with
  | zero => exact s.start_lt
  | succ n => exact h n fun i hi => hle i (by omega)

/-- From a rate of the sweep the next one is printed, and is greater. -/
theorem OnSweep.next (h : RisesTwice s) (hbelow : StaysBelow s) {rate : ℤ} (hrate : OnSweep s rate)
    (hmax : rate ≤ shell s.sweepMax) :
    ∃ next, s.printedRate rate = some next ∧ rate < next ∧ OnSweep s next := by
  obtain ⟨n, rfl, hle⟩ := hrate
  have hall : ∀ i ≤ n, s.product i ≤ shell s.sweepMax := by
    intro i hi
    rcases hi.eq_or_lt with rfl | hlt
    · exact hmax
    · exact hle i hlt
  have hsmall : nextRate s.sweepFactor (s.product n) < 2 ^ 64 := (hbelow n hall).trans (by norm_num)
  exact ⟨s.product (n + 1), (printedRate_eq (product_nonneg s n)).1 hsmall, (product_lt h n hall).2,
    n + 1, rfl, fun i hi => hall i (by omega)⟩

/-- In the sweep the rate is one of its rates. -/
def Sweeping (s : Settings) : State → Prop
  | ⟨.sweep rate _, _⟩ => OnSweep s rate
  | ⟨.refine _, _⟩ => False
  | ⟨.frozen _, _⟩ => True
  | ⟨.died, _⟩ => True

theorem sweeping_of_step (h : RisesTwice s) (hbelow : StaysBelow s) {x y : State}
    (hx : Sweeping s x) (hstep : s.allPassing.step x = some y) : Sweeping s y := by
  obtain ⟨phase, csv⟩ := x
  cases phase with
  | sweep rate best =>
    by_cases hmax : shell rate ≤ shell s.sweepMax
    · rw [hx.shell_eq hbelow] at hmax
      obtain ⟨next, hnext, -, hsweep⟩ := hx.next h hbelow hmax
      rw [step_allPassing (by rwa [hx.shell_eq hbelow]) hnext] at hstep
      cases hstep
      exact hsweep
    · rw [step_past (not_le.1 hmax)] at hstep
      cases hstep
      cases best <;> trivial
  | refine => exact hx.elim
  | frozen => cases hstep
  | died => cases hstep

theorem sweeping_of_reaches (h : RisesTwice s) (hbelow : StaysBelow s) {x : State}
    (hreach : s.allPassing.Reaches s.initial x) : Sweeping s x := by
  induction hreach with
  | refl => exact ⟨0, rfl, by omega⟩
  | tail _ hstep ih => exact sweeping_of_step h hbelow ih hstep

/-- What is left up to the maximum is the measure. -/
theorem ends_of_risesTwice (h : RisesTwice s) (hbelow : StaysBelow s) {rate : ℤ} {best : Option ℤ}
    {csv : List ℤ} (hrate : OnSweep s rate) :
    ∃ x, s.allPassing.Reaches ⟨.sweep rate best, csv⟩ x ∧ s.allPassing.step x = none := by
  induction hn : (shell s.sweepMax + 1 - rate).toNat using Nat.strong_induction_on
    generalizing rate best csv with
  | _ n ih =>
    have hread := hrate.shell_eq hbelow
    by_cases hmax : rate ≤ shell s.sweepMax
    · obtain ⟨next, hnext, hrises, hsweep⟩ := hrate.next h hbelow hmax
      obtain ⟨x, hreach, hend⟩ : ∃ x,
          s.allPassing.Reaches ⟨.sweep next (some rate), csv ++ [rate]⟩ x ∧ _ :=
        ih _ (by omega) hsweep rfl
      exact ⟨x, .head (step_allPassing (by rwa [hread]) hnext) hreach, hend⟩
    · refine ⟨⟨Settings.settle best, csv⟩, .single (step_past (by rw [hread]; exact not_le.1 hmax)), ?_⟩
      cases best <;> rfl

theorem sweepEnds_of_risesTwice (h : RisesTwice s) (hbelow : StaysBelow s) : s.SweepEnds := by
  refine ⟨fun rate best csv hreach hmax => ?_, ends_of_risesTwice h hbelow ⟨0, rfl, by omega⟩⟩
  have hrate : OnSweep s rate := sweeping_of_reaches h hbelow hreach
  rw [hrate.shell_eq hbelow] at hmax
  obtain ⟨next, hnext, hrises, -⟩ := hrate.next h hbelow hmax
  exact ⟨next, hnext, hrises⟩

/-! ### Past the 64 bits -/

/-- What an awk prints that stops at the greatest integer of 64 bits. -/
theorem printedRate_capped (hawk : s.awk = .capped) {rate next : ℤ} (hrate : 0 ≤ rate)
    (hnext : s.printedRate rate = some next) :
    next ≤ 2 ^ 64 - 1 ∧ next ≤ nextRate s.sweepFactor rate ∧
      (2 ^ 63 ≤ nextRate s.sweepFactor rate → 2 ^ 63 ≤ next) := by
  obtain ⟨hsmall, hlarge⟩ := printedRate_eq (s := s) hrate
  by_cases hbits : nextRate s.sweepFactor rate < 2 ^ 64
  · rw [hsmall hbits] at hnext
    cases hnext
    exact ⟨by omega, le_rfl, id⟩
  · rw [hlarge (not_lt.1 hbits), hawk] at hnext
    cases hnext
    exact ⟨le_rfl, by omega, fun _ => by norm_num⟩

/-- **A rate that the shell reads as a negative number is raised without end.** -/
theorem not_reaches_wrapped (hawk : s.awk = .capped) (h : s.SweepEnds) (hmax : 0 ≤ shell s.sweepMax)
    {rate : ℤ} {best : Option ℤ} {csv : List ℤ} (hlow : 2 ^ 63 ≤ rate) (hhigh : rate ≤ 2 ^ 64 - 1) :
    ¬s.allPassing.Reaches s.initial ⟨.sweep rate best, csv⟩ := by
  -- on the distance from the greatest integer, which every step lessens
  induction hn : (2 ^ 64 - 1 - rate).toNat using Nat.strong_induction_on
    generalizing rate best csv with
  | _ n ih =>
    intro hreach
    have hread : shell rate = rate - 2 ^ 64 := by
      unfold shell Int.bmod
      dsimp only
      split_ifs <;> omega
    have hprobed : shell rate ≤ shell s.sweepMax := by omega
    obtain ⟨next, hnext, hrises⟩ := h.rises rate best csv hreach hprobed
    obtain ⟨hcapped, -, -⟩ := printedRate_capped hawk (by omega) hnext
    exact ih _ (by omega) (by omega) hcapped rfl (hreach.tail (step_allPassing hprobed hnext))

/-- As long as no product is past the maximum, the sweep goes through the products, and they are
integers of the shell. -/
theorem reaches_product (hawk : s.awk = .capped) (h : s.SweepEnds) (n : ℕ)
    (hle : ∀ i ≤ n, s.product i ≤ shell s.sweepMax) :
    (∃ best csv, s.allPassing.Reaches s.initial ⟨.sweep (s.product n) best, csv⟩) ∧
      s.product (n + 1) < 2 ^ 63 := by
  have hmax : 0 ≤ shell s.sweepMax := (product_nonneg s 0).trans (hle 0 (by omega))
  have hread : ∀ i ≤ n, shell (s.product i) = s.product i := by
    intro i hi
    have hnonneg := product_nonneg s i
    exact shell_eq (by omega) ((hle i hi).trans_lt (shell_range _).2)
  have hbelow : ∀ m ≤ n, (∃ best csv,
      s.allPassing.Reaches s.initial ⟨.sweep (s.product m) best, csv⟩) → s.product (m + 1) < 2 ^ 63 := by
    rintro m hm ⟨best, csv, hreach⟩
    by_contra hover
    have hprobed : shell (s.product m) ≤ shell s.sweepMax := by
      rw [hread m hm]
      exact hle m hm
    obtain ⟨next, hnext, -⟩ := h.rises _ best csv hreach hprobed
    obtain ⟨hcapped, -, hlarge⟩ := printedRate_capped hawk (product_nonneg s m) hnext
    exact not_reaches_wrapped hawk h hmax (hlarge (not_lt.1 hover)) hcapped
      (hreach.tail (step_allPassing hprobed hnext))
  have hreach : ∃ best csv, s.allPassing.Reaches s.initial ⟨.sweep (s.product n) best, csv⟩ := by
    induction n with
    | zero => exact ⟨none, [], .refl⟩
    | succ n ih =>
      have hle' : ∀ i ≤ n, s.product i ≤ shell s.sweepMax := fun i hi => hle i (by omega)
      obtain ⟨best, csv, hreach⟩ := ih hle' (fun i hi => hread i (by omega))
        fun m hm => hbelow m (by omega)
      have hsmall : nextRate s.sweepFactor (s.product n) < 2 ^ 64 :=
        (hbelow n (by omega) ⟨best, csv, hreach⟩).trans (by norm_num)
      have hprobed : shell (s.product n) ≤ shell s.sweepMax := by
        rw [hread n (by omega)]
        exact hle n (by omega)
      exact ⟨_, _, hreach.tail
        (step_allPassing hprobed ((printedRate_eq (product_nonneg s n)).1 hsmall))⟩
  exact ⟨hreach, hbelow n le_rfl hreach⟩

theorem risesTwice_of_sweepEnds (hawk : s.awk = .capped) (h : s.SweepEnds) :
    RisesTwice s ∧ StaysBelow s := by
  refine ⟨?_, fun n hle => (reaches_product hawk h n hle).2⟩
  have hrises : ∀ n, (∀ i ≤ n, s.product i ≤ shell s.sweepMax) →
      s.product n < s.product (n + 1) := by
    intro n hle
    obtain ⟨⟨best, csv, hreach⟩, -⟩ := reaches_product hawk h n hle
    have hnonneg := product_nonneg s n
    have hread := shell_eq (by omega) ((hle n le_rfl).trans_lt (shell_range _).2)
    obtain ⟨next, hnext, hlt⟩ := h.rises _ best csv hreach (by rw [hread]; exact hle n le_rfl)
    exact hlt.trans_le (printedRate_capped hawk hnonneg hnext).2.1
  by_cases hmax : s.sweepStart ≤ shell s.sweepMax
  swap
  · exact .inl (not_le.1 hmax)
  have hzero : ∀ i ≤ 0, s.product i ≤ shell s.sweepMax := by
    rintro i hi
    obtain rfl := Nat.le_zero.1 hi
    exact hmax
  refine .inr ⟨hrises 0 hzero, ?_⟩
  by_cases hmax' : nextRate s.sweepFactor s.sweepStart ≤ shell s.sweepMax
  · refine .inr (hrises 1 fun i hi => ?_)
    rcases Nat.le_one_iff_eq_zero_or_eq_one.1 hi with rfl | rfl
    · exact hmax
    · exact hmax'
  · exact .inl (not_le.1 hmax')

/-- The products do not depend on what `awk` prints. -/
theorem staysBelow_awk (s : Settings) (awk : Awk) :
    StaysBelow { s with awk := awk } ↔ StaysBelow s := by
  have hproduct : ∀ n, Settings.product { s with awk := awk } n = s.product n := by
    intro n
    induction n with
    | zero => rfl
    | succ n ih => exact congrArg (nextRate s.sweepFactor) ih
  simp only [StaysBelow, hproduct]

/-- **When the sweep rises and ends**, whatever `awk` prints for more than 64 bits. -/
theorem sweepEnds_iff (s : Settings) :
    (∀ awk, Settings.SweepEnds { s with awk := awk }) ↔ RisesTwice s ∧ StaysBelow s := by
  constructor
  · intro h
    obtain ⟨htwice, hbelow⟩ := risesTwice_of_sweepEnds rfl (h .capped)
    exact ⟨htwice, (staysBelow_awk s .capped).1 hbelow⟩
  · rintro ⟨htwice, hbelow⟩ awk
    exact sweepEnds_of_risesTwice htwice ((staysBelow_awk s awk).2 hbelow)

/-- A start of at most 53 bits that rises once rises again. -/
theorem risesTwice_of_rises (hstart : s.sweepStart ≤ 2 ^ 53)
    (h : s.sweepStart < nextRate s.sweepFactor s.sweepStart) : RisesTwice s := by
  by_cases hmax : nextRate s.sweepFactor s.sweepStart ≤ shell s.sweepMax
  · refine .inr ⟨h, .inr (rises_of_rises s.factor_nonneg s.start_nonneg (k := s.sweepStart) (e := 0)
      ?_ le_rfl (by rw [zpow_zero, mul_one]) h h.le (hmax.trans_lt (shell_range _).2))⟩
    rwa [abs_of_nonneg s.start_nonneg]
  · exact .inr ⟨h, .inl (not_le.1 hmax)⟩

/-- One request a second, and the default factor and maximum. -/
def oneRequest : Settings where
  awk := .capped
  sweepStart := 1
  sweepFactor := 3 / 2
  sweepMax := 65536
  refinePct := 5
  p99Target := 10
  p99 _ := 0
  start_nonneg := by decide
  start_lt := by decide
  factor_nonneg := defaultFactor_nonneg

/-- The truncation takes the whole step away. -/
theorem stays_at_one : ¬oneRequest.SweepEnds := by
  intro h
  obtain ⟨next, hnext, hrises⟩ := h.rises 1 none [] .refl (by decide)
  have hone : oneRequest.printedRate 1 = some 1 := by decide +kernel
  rw [hone] at hnext
  cases hnext
  exact absurd hrises (by decide)

end Sweep

end Calibrate

end LinuxSched

import K8Labs.LinuxSched.Contrast
import K8Labs.Multiplicity.StepDown
import Mathlib.Algebra.Order.Ring.Rat
import Mathlib.Tactic.FieldSimp
import Mathlib.Tactic.Linarith
import Mathlib.Tactic.Positivity

/-!
# The step-down over t statistics

`_holm_step_down` of the two linux-sched analyses goes down the contrasts in the order of their
statistics and compares each with the critical value of its position at its own degrees of freedom.

* `stepDownLoop_eq`: the loop rejects the hypotheses of a walk, and it raises `ZeroDivisionError`
  when the walk uses up the family before the hypotheses.
* `divisors_pos_iff`: the divisors are positive unless more hypotheses than the family has reach
  their critical values.
* `StudentT` is what the order by the statistic relies on: a distribution, its quantiles and tails
  that are heavier with fewer degrees of freedom.  `holmStepDown_eq_holm_iff`: **the loop rejects
  what Holm's procedure rejects in the order of the p-values exactly when no hypothesis behind the
  stop reaches the critical value of the stop at its own degrees of freedom.**
-/

namespace LinuxSched

open Py StepDown

variable {K : Type} [Field K] [LinearOrder K]

/-! ### The loop -/

section Loop

variable (tPpf : K → ℕ → Except Exc K) (scores : List (Extended K)) (dfs : List ℕ) (alpha : K)
  (sided m : ℕ)

/-- The loop of `_holm_step_down` from a position on. -/
def stepDownLoop : ℕ → List ℕ → List Bool → Except Exc (List Bool)
  | _, [], rejected => .ok rejected
  | position, index :: order, rejected =>
    (div alpha (sided * (m - position + 1))).bind fun adjusted =>
      (tPpf (1 - adjusted) (dfs.getD index 0)).bind fun critical =>
        if Extended.fin critical ≤ scores.getD index ⊥ then
          stepDownLoop (position + 1) order (rejected.set index true)
        else .ok rejected

omit [Field K] in
variable (K) in
/-- `sorted(range(len(scores)), key=lambda i: scores[i], reverse=True)`. -/
def scoreOrder (scores : List (Extended K)) : List ℕ :=
  (List.range scores.length).insertionSort fun i j => scores.getD j ⊥ ≤ scores.getD i ⊥

/-- `_holm_step_down`. -/
def holmStepDown (familySize : Option ℕ) : Except Exc (List Bool) :=
  stepDownLoop tPpf scores dfs alpha sided (familySize.getD scores.length) 1
    (scoreOrder K scores) (List.replicate scores.length false)

/-- The hypothesis reaches the critical value of position `k`, counted from zero. -/
def reaches (k index : ℕ) : Bool :=
  k < m ∧ okAnd (tPpf (1 - alpha / (sided * ((m : K) - k))) (dfs.getD index 0)) fun critical =>
    Extended.fin critical ≤ scores.getD index ⊥

/-- The hypotheses that are rejected from position `k` on. -/
def rejects (k : ℕ) (order : List ℕ) : List ℕ :=
  walk (fun k i => reaches tPpf scores dfs alpha sided m k i = true) k order

/-- The divisors the loop evaluates from position `k` on. -/
def divisors : ℕ → List ℕ → List ℤ
  | _, [] => []
  | k, index :: order => (sided * (m - k) : ℤ) ::
      if reaches tPpf scores dfs alpha sided m k index = true then divisors (k + 1) order else []

end Loop

/-! ### Positions and divisors -/

section Positions

variable {tPpf : K → ℕ → Except Exc K} {scores : List (Extended K)} {dfs : List ℕ} {alpha : K}
  {sided m k : ℕ} {order : List ℕ}

theorem reaches_eq_true {index : ℕ} :
    reaches tPpf scores dfs alpha sided m k index = true ↔ k < m ∧ ∃ critical,
      tPpf (1 - alpha / (sided * ((m : K) - k))) (dfs.getD index 0) = .ok critical ∧
        Extended.fin critical ≤ scores.getD index ⊥ := by
  rw [reaches, decide_eq_true_eq, okAnd_eq_true]
  simp only [decide_eq_true_eq]

theorem rejects_cons {index : ℕ} (h : reaches tPpf scores dfs alpha sided m k index = true)
    (order : List ℕ) : rejects tPpf scores dfs alpha sided m k (index :: order) =
      index :: rejects tPpf scores dfs alpha sided m (k + 1) order :=
  if_pos h

theorem rejects_cons_of_not {index : ℕ} (h : ¬ reaches tPpf scores dfs alpha sided m k index = true)
    (order : List ℕ) : rejects tPpf scores dfs alpha sided m k (index :: order) = [] :=
  if_neg h

/-- The loop marks hypotheses of the list it is given. -/
theorem length_stepDownLoop {position : ℕ} {rejected result : List Bool}
    (h : stepDownLoop tPpf scores dfs alpha sided m position order rejected = .ok result) :
    result.length = rejected.length := by
  induction order generalizing position rejected with
  | nil =>
    cases h
    rfl
  | cons index order ih =>
    obtain ⟨adjusted, -, h⟩ := bind_eq_ok.1 h
    obtain ⟨critical, -, h⟩ := bind_eq_ok.1 h
    split_ifs at h
    · rw [ih h, List.length_set]
    · cases h
      rfl

theorem length_holmStepDown {familySize : Option ℕ} {result : List Bool}
    (h : holmStepDown tPpf scores dfs alpha sided familySize = .ok result) :
    result.length = scores.length := by
  rw [length_stepDownLoop h, List.length_replicate]

omit [Field K] in
theorem scoreOrder_perm (scores : List (Extended K)) :
    (scoreOrder K scores).Perm (List.range scores.length) :=
  List.perm_insertionSort _ _

omit [Field K] in
theorem length_scoreOrder (scores : List (Extended K)) :
    (scoreOrder K scores).length = scores.length := by
  rw [(scoreOrder_perm scores).length_eq, List.length_range]

omit [Field K] in
theorem mem_scoreOrder {scores : List (Extended K)} {i : ℕ} :
    i ∈ scoreOrder K scores ↔ i < scores.length := by
  rw [(scoreOrder_perm scores).mem_iff, List.mem_range]

/-- The divisors are positive unless the walk uses up the family before the hypotheses. -/
theorem divisors_pos_iff (hsided : 0 < sided) (hk : k ≤ m) :
    (∀ d ∈ divisors tPpf scores dfs alpha sided m k order, 0 < d) ↔
      (rejects tPpf scores dfs alpha sided m k order).length = order.length ∨
        k + (rejects tPpf scores dfs alpha sided m k order).length < m := by
  induction order generalizing k with
  | nil => simp [divisors, rejects, walk]
  | cons index order ih =>
    rcases hk.lt_or_eq with hk | rfl
    · have hpos : (0 : ℤ) < sided * (m - k) := mul_pos (by exact_mod_cast hsided) (by omega)
      by_cases hr : reaches tPpf scores dfs alpha sided m k index = true
      · rw [divisors, if_pos hr, List.forall_mem_cons, rejects_cons hr]
        refine (and_iff_right hpos).trans ((ih hk).trans ?_)
        simp only [ List.length_cons, Nat.add_right_cancel_iff,
          Nat.add_right_comm k 1, Nat.add_assoc]
      · rw [divisors, if_neg hr, rejects_cons_of_not hr]
        simp [hpos, hk]
    · have hr : ¬ reaches tPpf scores dfs alpha sided k k index = true := by simp [reaches]
      rw [divisors, rejects_cons_of_not hr]
      simp

/-- The family is not used up before the hypotheses. -/
def Fits (tPpf : K → ℕ → Except Exc K) (scores : List (Extended K)) (dfs : List ℕ) (alpha : K)
    (sided m : ℕ) : Prop :=
  scores.length ≤ m ∨ ∃ k, ∃ hk : k < (scoreOrder K scores).length,
    k < m ∧ reaches tPpf scores dfs alpha sided m k (scoreOrder K scores)[k] = false

theorem fits_iff_rejects :
    Fits tPpf scores dfs alpha sided m ↔
      (rejects tPpf scores dfs alpha sided m 0 (scoreOrder K scores)).length = scores.length ∨
        (rejects tPpf scores dfs alpha sided m 0 (scoreOrder K scores)).length < m := by
  have hinside : ∀ k i, reaches tPpf scores dfs alpha sided m k i = true → k < m :=
    fun k i h => (of_decide_eq_true h).1
  have hfits := fits_iff hinside (scoreOrder K scores)
  rw [Fits, ← length_scoreOrder scores]
  simp only [Bool.not_eq_true] at hfits
  exact hfits.symm

end Positions

/-! ### What the loop does -/

section Spec

variable [IsStrictOrderedRing K] {tPpf : K → ℕ → Except Exc K} {scores : List (Extended K)}
  {dfs : List ℕ} {alpha : K} {sided m : ℕ}

/-- The arguments of a step-down: a level inside the unit interval, at least three blocks for every
contrast, and quantiles for every probability inside the unit interval. -/
structure Applicable (tPpf : K → ℕ → Except Exc K) (dfs : List ℕ) (alpha : K)
    (sided n : ℕ) : Prop where
  pos : 0 < alpha
  lt_one : alpha < 1
  sided_pos : 0 < sided
  two_le : ∀ i < n, 2 ≤ dfs.getD i 0
  returns : ∀ p d, 0 < p → p < 1 → 2 ≤ d → ∃ critical, tPpf p d = .ok critical

variable {k : ℕ} {order : List ℕ}

/-- The level of a position inside the family is a probability. -/
theorem level_mem (h : Applicable tPpf dfs alpha sided scores.length) (hk : k < m) :
    0 < (sided : K) * ((m : K) - k) ∧ 0 < 1 - alpha / (sided * ((m : K) - k)) ∧
      1 - alpha / (sided * ((m : K) - k)) < 1 := by
  have hsided : (1 : K) ≤ sided := by exact_mod_cast h.sided_pos
  have hrest : (1 : K) ≤ (m : K) - k := by
    rw [le_sub_iff_add_le']
    exact_mod_cast hk
  have hdiv : (1 : K) ≤ sided * ((m : K) - k) := one_le_mul_of_one_le_of_one_le hsided hrest
  have hpos := zero_lt_one.trans_le hdiv
  refine ⟨hpos, ?_, ?_⟩
  · rw [sub_pos, div_lt_one hpos]
    exact h.lt_one.trans_le hdiv
  · rw [sub_lt_self_iff]
    exact div_pos h.pos hpos

/-- One step of the loop inside the family. -/
theorem stepDownLoop_of_lt (hsided : 0 < sided) (hk : k < m) (index : ℕ) (order : List ℕ)
    (rejected : List Bool) :
    stepDownLoop tPpf scores dfs alpha sided m (k + 1) (index :: order) rejected =
      (tPpf (1 - alpha / (sided * ((m : K) - k))) (dfs.getD index 0)).bind fun critical =>
        if Extended.fin critical ≤ scores.getD index ⊥ then
          stepDownLoop tPpf scores dfs alpha sided m (k + 2) order (rejected.set index true)
        else .ok rejected := by
  have hpos : (0 : K) < sided * ((m : K) - k) :=
    mul_pos (by exact_mod_cast hsided) (sub_pos.2 (by exact_mod_cast hk))
  have hshift : (m : K) - (k + 1 : ℕ) + 1 = (m : K) - k := by
    push_cast
    ring
  rw [stepDownLoop, hshift, div, if_neg hpos.ne']
  rfl

/-- The same step when there is a critical value. -/
theorem stepDownLoop_cons (h : Applicable tPpf dfs alpha sided scores.length) (hk : k < m)
    {index : ℕ} (hindex : index < scores.length) (order : List ℕ) (rejected : List Bool) :
    stepDownLoop tPpf scores dfs alpha sided m (k + 1) (index :: order) rejected =
      if reaches tPpf scores dfs alpha sided m k index = true then
        stepDownLoop tPpf scores dfs alpha sided m (k + 2) order (rejected.set index true)
      else .ok rejected := by
  obtain ⟨-, hprob, hlt⟩ := level_mem h hk
  obtain ⟨critical, hcritical⟩ := h.returns _ _ hprob hlt (h.two_le index hindex)
  rw [stepDownLoop_of_lt h.sided_pos hk, hcritical]
  simp only [Except.bind, reaches, hcritical, hk, okAnd, decide_eq_true_eq, true_and]

/-- **The loop follows a walk.**  It marks what the walk rejects, unless the walk uses up the family
before the hypotheses: then the next position divides by zero. -/
theorem stepDownLoop_eq (h : Applicable tPpf dfs alpha sided scores.length) (hk : k ≤ m)
    (horder : ∀ i ∈ order, i < scores.length) (rejected : List Bool) :
    stepDownLoop tPpf scores dfs alpha sided m (k + 1) order rejected =
      if (rejects tPpf scores dfs alpha sided m k order).length = order.length ∨
          k + (rejects tPpf scores dfs alpha sided m k order).length < m then
        .ok ((rejects tPpf scores dfs alpha sided m k order).foldl
          (fun marks index => marks.set index true) rejected)
      else .error ⟨.zeroDivisionError, "float division by zero"⟩ := by
  induction order generalizing k rejected with
  | nil => simp [stepDownLoop, rejects, walk]
  | cons index order ih =>
    rcases hk.lt_or_eq with hk | rfl
    · rw [stepDownLoop_cons h hk (horder index List.mem_cons_self)]
      by_cases hr : reaches tPpf scores dfs alpha sided m k index = true
      · rw [if_pos hr, ih hk (fun i hi => horder i (List.mem_cons_of_mem _ hi)), rejects_cons hr]
        simp only [List.length_cons, List.foldl_cons, Nat.add_right_cancel_iff,
          Nat.add_right_comm k 1, Nat.add_assoc]
      · rw [if_neg hr, rejects_cons_of_not hr]
        simp [hk]
    · -- the family is used up
      have hr : ¬ reaches tPpf scores dfs alpha sided k k index = true := by simp [reaches]
      rw [rejects_cons_of_not hr, stepDownLoop]
      simp [div, Except.bind]

/-- **When the loop divides by zero**, whatever the level and the degrees of freedom: when the walk
uses up the family before the hypotheses. -/
theorem stepDownLoop_zeroDivision_iff (hsided : 0 < sided)
    (hraises : ∀ p d, Raises [.valueError] (tPpf p d)) (hk : k ≤ m) (rejected : List Bool) :
    (∃ e, stepDownLoop tPpf scores dfs alpha sided m (k + 1) order rejected = .error e ∧
        e.cls = .zeroDivisionError) ↔
      ¬ ((rejects tPpf scores dfs alpha sided m k order).length = order.length ∨
        k + (rejects tPpf scores dfs alpha sided m k order).length < m) := by
  induction order generalizing k rejected with
  | nil => simp [stepDownLoop, rejects, walk]
  | cons index order ih =>
    rcases hk.lt_or_eq with hk | rfl
    · rw [stepDownLoop_of_lt hsided hk]
      cases hcritical : tPpf (1 - alpha / (sided * ((m : K) - k))) (dfs.getD index 0) with
      | error e =>
        -- no quantile: the loop raises, but no division by zero
        have hr : ¬ reaches tPpf scores dfs alpha sided m k index = true := by
          rw [reaches_eq_true, hcritical]
          rintro ⟨-, critical, h, -⟩
          cases h
        have hclass := hraises _ _ e hcritical
        rw [rejects_cons_of_not hr]
        refine iff_of_false ?_ (not_not.2 (.inr hk))
        rintro ⟨e', he', hzero⟩
        cases he'
        rw [hzero] at hclass
        simp at hclass
      | ok critical =>
        have hiff : reaches tPpf scores dfs alpha sided m k index = true ↔
            Extended.fin critical ≤ scores.getD index ⊥ := by
          rw [reaches_eq_true, hcritical, and_iff_right hk]
          simp
        by_cases hr : reaches tPpf scores dfs alpha sided m k index = true
        · rw [rejects_cons hr]
          simp only [Except.bind, if_pos (hiff.1 hr)]
          refine (ih hk _).trans (not_congr ?_)
          simp only [List.length_cons, Nat.add_right_cancel_iff, Nat.add_right_comm k 1,
            Nat.add_assoc]
        · rw [rejects_cons_of_not hr]
          simp only [Except.bind, if_neg (mt hiff.2 hr)]
          simp [hk]
    · have hr : ¬ reaches tPpf scores dfs alpha sided k k index = true := by simp [reaches]
      rw [rejects_cons_of_not hr, stepDownLoop]
      simp [div, Except.bind]

theorem holmStepDown_zeroDivision_iff (hsided : 0 < sided)
    (hraises : ∀ p d, Raises [.valueError] (tPpf p d)) {familySize : Option ℕ} :
    (∃ e, holmStepDown tPpf scores dfs alpha sided familySize = .error e ∧
        e.cls = .zeroDivisionError) ↔
      ¬ Fits tPpf scores dfs alpha sided (familySize.getD scores.length) := by
  rw [holmStepDown, fits_iff_rejects, stepDownLoop_zeroDivision_iff hsided hraises (Nat.zero_le _),
    length_scoreOrder, zero_add]

/-- **`_holm_step_down`** marks what the walk rejects, or divides by zero. -/
theorem holmStepDown_cases {familySize : Option ℕ}
    (h : Applicable tPpf dfs alpha sided scores.length) :
    let m := familySize.getD scores.length
    (Fits tPpf scores dfs alpha sided m ∧
      ∃ rejected, holmStepDown tPpf scores dfs alpha sided familySize = .ok rejected ∧
        ∀ i, rejected.getD i false = true ↔
          i ∈ rejects tPpf scores dfs alpha sided m 0 (scoreOrder K scores)) ∨
    (¬ Fits tPpf scores dfs alpha sided m ∧
      holmStepDown tPpf scores dfs alpha sided familySize =
        .error ⟨.zeroDivisionError, "float division by zero"⟩) := by
  intro m
  have hloop := stepDownLoop_eq h (Nat.zero_le m) (fun i hi => mem_scoreOrder.1 hi)
    (List.replicate scores.length false)
  have hcond := @fits_iff_rejects _ _ _ tPpf scores dfs alpha sided m
  rw [length_scoreOrder] at hloop
  by_cases hfits : Fits tPpf scores dfs alpha sided m
  · refine .inl ⟨hfits, _, hloop.trans (if_pos (by simpa using hcond.1 hfits)), fun i => ?_⟩
    rw [getD_foldl_set, getD_replicate_false, List.length_replicate]
    exact ⟨fun hi => (hi.resolve_left Bool.false_ne_true).1,
      fun hi => .inr ⟨hi, mem_scoreOrder.1 (walk_subset _ hi)⟩⟩
  · exact .inr ⟨hfits, hloop.trans (if_neg (by simpa using mt hcond.2 hfits))⟩

end Spec

/-! ### The order by the statistic and the order by the p-value -/

/-- A family of Student-t distributions: a distribution and its quantiles for every number of
degrees of freedom.  With fewer degrees of freedom the upper tail is heavier. -/
structure StudentT (K : Type) [Field K] [LinearOrder K] where
  cdf : Extended K → ℕ → K
  quantile : K → ℕ → K
  cdf_strictMono : ∀ {d}, 0 < d → StrictMono fun t => cdf t d
  cdf_top : ∀ d, cdf ⊤ d = 1
  cdf_bot : ∀ d, cdf ⊥ d = 0
  cdf_quantile : ∀ {p d}, 0 < p → p < 1 → 0 < d → cdf (.fin (quantile p d)) d = p
  heavier : ∀ {t : K} {d e}, 0 < t → 0 < d → d < e → cdf (.fin t) d < cdf (.fin t) e

namespace StudentT

variable (T : StudentT K)

/-- `_t_ppf` for the quantiles of the family. -/
def ppf (probability : K) (degreesOfFreedom : ℕ) : Except Exc K :=
  if ¬ (0 < probability ∧ probability < 1) then valueError "probability must be in (0, 1)"
  else if degreesOfFreedom < 2 then
    valueError "Cornish-Fisher t approximation requires df >= 2"
  else .ok (T.quantile probability degreesOfFreedom)

/-- The p-value of a statistic. -/
def pValue (sided : ℕ) (t : Extended K) (d : ℕ) : K := sided * (1 - T.cdf t d)

theorem ppf_eq {p : K} {d : ℕ} (hp : 0 < p) (hp' : p < 1) (hd : 2 ≤ d) :
    T.ppf p d = .ok (T.quantile p d) := by
  rw [ppf, if_neg (not_not.2 ⟨hp, hp'⟩), if_neg (not_lt.2 hd)]

/-- A statistic reaches a quantile when its distribution function reaches the probability. -/
theorem quantile_le_iff {p : K} {d : ℕ} {t : Extended K} (hp : 0 < p) (hp' : p < 1) (hd : 0 < d) :
    .fin (T.quantile p d) ≤ t ↔ p ≤ T.cdf t d := by
  conv_rhs => rw [← T.cdf_quantile hp hp' hd]
  exact (T.cdf_strictMono hd).le_iff_le.symm

end StudentT

section Holm

variable [IsStrictOrderedRing K] (T : StudentT K) {scores : List (Extended K)} {dfs : List ℕ}
  {alpha : K} {sided m n : ℕ}

/-- The arguments of a step-down over Student-t statistics. -/
structure Family (dfs : List ℕ) (alpha : K) (sided n : ℕ) : Prop where
  pos : 0 < alpha
  lt_one : alpha < 1
  sided_pos : 0 < sided
  two_le : ∀ i < n, 2 ≤ dfs.getD i 0

omit [IsStrictOrderedRing K] in
theorem Family.applicable (h : Family dfs alpha sided n) : Applicable T.ppf dfs alpha sided n :=
  { h with returns := fun _ _ hp hp' hd => ⟨_, T.ppf_eq hp hp' hd⟩ }

/-- The p-value of hypothesis `i`. -/
def pValueAt (scores : List (Extended K)) (dfs : List ℕ) (sided i : ℕ) : K :=
  T.pValue sided (scores.getD i ⊥) (dfs.getD i 0)

/-- **One comparison**: reaching the critical value of a position is passing its Holm level. -/
theorem reaches_iff_passes (h : Family dfs alpha sided scores.length) {k i : ℕ}
    (hi : i < scores.length) :
    reaches T.ppf scores dfs alpha sided m k i = true ↔
      Passes alpha m (pValueAt T scores dfs sided) k i := by
  rw [reaches, decide_eq_true_eq, Passes]
  refine and_congr_right fun hk => ?_
  obtain ⟨hpos, hprob, hlt⟩ := level_mem (h.applicable T) hk
  have hd := h.two_le i hi
  have hsided : (0 : K) < sided := by exact_mod_cast h.sided_pos
  have hrest : (0 : K) < (m : K) - k := (mul_pos_iff_of_pos_left hsided).1 hpos
  rw [T.ppf_eq hprob hlt hd, okAnd, decide_eq_true_eq,
    T.quantile_le_iff hprob hlt (by omega), pValueAt, StudentT.pValue]
  calc 1 - alpha / (sided * ((m : K) - k)) ≤ T.cdf (scores.getD i ⊥) (dfs.getD i 0)
      ↔ 1 - T.cdf (scores.getD i ⊥) (dfs.getD i 0) ≤ alpha / (sided * ((m : K) - k)) := by
        rw [sub_le_comm]
    _ ↔ sided * (1 - T.cdf (scores.getD i ⊥) (dfs.getD i 0)) ≤ alpha / ((m : K) - k) := by
        rw [le_div_iff₀ hpos, le_div_iff₀ hrest]
        ring_nf

variable (dfs alpha sided m) (scores)

/-- The result of a step-down is what Holm's procedure rejects, down the p-values in any of their
orders. -/
def IsHolm (result : Except Exc (List Bool)) : Prop :=
  ∃ rejected, result = .ok rejected ∧ ∀ order, order.Perm (List.range scores.length) →
    order.Pairwise (fun i j => pValueAt T scores dfs sided i ≤ pValueAt T scores dfs sided j) →
    ∀ i, rejected.getD i false = true ↔
      i ∈ walk (Passes alpha m (pValueAt T scores dfs sided)) 0 order

/-- There is a position before which the hypotheses reach the critical values of their own
positions, and from which on none reaches the critical value of that position; it lies inside the
family, or behind all hypotheses. -/
def Separated (tPpf : K → ℕ → Except Exc K) : Prop :=
  ∃ stop, (stop < m ∨ stop = scores.length) ∧
    ∀ j i, (scoreOrder K scores)[j]? = some i →
      if j < stop then reaches tPpf scores dfs alpha sided m j i = true
      else reaches tPpf scores dfs alpha sided m stop i = false

variable {dfs alpha sided m scores}

omit [IsStrictOrderedRing K] in
theorem Separated.fits {tPpf : K → ℕ → Except Exc K}
    (h : Separated scores dfs alpha sided m tPpf) : Fits tPpf scores dfs alpha sided m := by
  obtain ⟨stop, hstop, hall⟩ := h
  have hget : ∀ {j} (hj : j < (scoreOrder K scores).length),
      (scoreOrder K scores)[j]? = some (scoreOrder K scores)[j] := List.getElem?_eq_getElem
  by_cases hfits : scores.length ≤ m
  · exact .inl hfits
  · rw [not_le] at hfits
    have hm : m < (scoreOrder K scores).length := by rwa [length_scoreOrder]
    rcases hstop with hlt | rfl
    · have hj := hlt.trans hm
      have := hall _ _ (hget hj)
      rw [if_neg (lt_irrefl _)] at this
      exact .inr ⟨stop, hj, hlt, this⟩
    · -- the hypothesis at position `m` does not reach anything
      have := hall _ _ (hget hm)
      rw [if_pos hfits] at this
      exact absurd (of_decide_eq_true this).1 (lt_irrefl m)

omit [IsStrictOrderedRing K] in
theorem separated_iff {tPpf : K → ℕ → Except Exc K}
    (hfits : Fits tPpf scores dfs alpha sided m) :
    Separated scores dfs alpha sided m tPpf ↔
      ∀ i ∈ scoreOrder K scores, i ∉ rejects tPpf scores dfs alpha sided m 0 (scoreOrder K scores) →
        ¬ reaches tPpf scores dfs alpha sided m
          (rejects tPpf scores dfs alpha sided m 0 (scoreOrder K scores)).length i = true := by
  have hnodup : (scoreOrder K scores).Nodup := (scoreOrder_perm scores).symm.nodup List.nodup_range
  have hstop := fits_iff_rejects.1 hfits
  rw [← length_scoreOrder scores] at hstop
  rw [Separated, ← length_scoreOrder scores]
  have hiff := exists_stop_iff hnodup hstop
  simp only [Bool.not_eq_true] at hiff ⊢
  exact hiff

/-- **When the order by the statistic is as good as the order by the p-value.** -/
theorem isHolm_iff (h : Family dfs alpha sided scores.length) (familySize : Option ℕ) :
    IsHolm T scores dfs alpha sided (familySize.getD scores.length)
        (holmStepDown T.ppf scores dfs alpha sided familySize) ↔
      Separated scores dfs alpha sided (familySize.getD scores.length) T.ppf := by
  generalize hm : familySize.getD scores.length = m
  have hnodup : (scoreOrder K scores).Nodup := (scoreOrder_perm scores).symm.nodup List.nodup_range
  have hcases := @holmStepDown_cases _ _ _ _ T.ppf scores dfs alpha sided familySize
    (h.applicable T)
  rw [hm] at hcases
  rcases hcases with ⟨hfits, rejected, hok, hmarks⟩ | ⟨hnot, herror⟩
  · have htest := @test_passes ℕ K _ _ _ alpha m (pValueAt T scores dfs sided) h.pos.le
    have hwalk : rejects T.ppf scores dfs alpha sided m 0 (scoreOrder K scores) =
        walk (Passes alpha m (pValueAt T scores dfs sided)) 0 (scoreOrder K scores) :=
      walk_congr fun k i hi => reaches_iff_passes T h (mem_scoreOrder.1 hi)
    have hstop := fits_iff_rejects.1 hfits
    rw [← length_scoreOrder scores] at hstop
    rw [hwalk] at hstop hmarks
    have hsep : Separated scores dfs alpha sided m T.ppf ↔
        ∀ i ∈ scoreOrder K scores,
          i ∉ walk (Passes alpha m (pValueAt T scores dfs sided)) 0 (scoreOrder K scores) →
          ¬ Passes alpha m (pValueAt T scores dfs sided)
            (walk (Passes alpha m (pValueAt T scores dfs sided)) 0 (scoreOrder K scores)).length
            i := by
      refine (separated_iff hfits).trans (forall₂_congr fun i hi => ?_)
      rw [hwalk, reaches_iff_passes T h (mem_scoreOrder.1 hi)]
    have hequal := fun order hperm hsorted =>
      @Test.walk_eq_iff _ _ _ _ _ _ _ (scoreOrder K scores) order htest hnodup hperm hsorted hstop
    rw [hsep]
    constructor
    · rintro ⟨rejected', hok', hholm⟩
      cases hok.symm.trans hok'
      -- some order of the p-values there is
      have : Std.Total fun i j => pValueAt T scores dfs sided i ≤ pValueAt T scores dfs sided j :=
        ⟨fun _ _ => le_total _ _⟩
      have : IsTrans ℕ fun i j => pValueAt T scores dfs sided i ≤ pValueAt T scores dfs sided j :=
        ⟨fun _ _ _ => le_trans⟩
      have hperm := List.perm_insertionSort
        (fun i j => pValueAt T scores dfs sided i ≤ pValueAt T scores dfs sided j)
        (List.range scores.length)
      have hsorted := List.pairwise_insertionSort
        (fun i j => pValueAt T scores dfs sided i ≤ pValueAt T scores dfs sided j)
        (List.range scores.length)
      exact (hequal _ ((scoreOrder_perm scores).trans hperm.symm) hsorted).1 fun i =>
        (hmarks i).symm.trans (hholm _ hperm hsorted i)
    · intro hfail
      refine ⟨rejected, hok, fun order hperm hsorted i => (hmarks i).trans ?_⟩
      exact (hequal order ((scoreOrder_perm scores).trans hperm.symm) hsorted).2 hfail i
  · constructor
    · rintro ⟨_, hok, -⟩
      rw [herror] at hok
      cases hok
    · exact fun hsep => absurd hsep.fits hnot

/-- With equal degrees of freedom the order by the statistic is the order by the p-value. -/
theorem separated_of_df_eq (h : Family dfs alpha sided scores.length) (hfits : scores.length ≤ m)
    {d : ℕ} (hd : ∀ i < scores.length, dfs.getD i 0 = d) :
    Separated scores dfs alpha sided m T.ppf := by
  refine (separated_iff (.inl hfits)).2 fun i hi hnot => ?_
  have htest := @test_passes ℕ K _ _ _ alpha m (pValueAt T scores dfs sided) h.pos.le
  have hwalk : rejects T.ppf scores dfs alpha sided m 0 (scoreOrder K scores) =
      walk (Passes alpha m (pValueAt T scores dfs sided)) 0 (scoreOrder K scores) :=
    walk_congr fun k i hi => reaches_iff_passes T h (mem_scoreOrder.1 hi)
  have hsorted : (scoreOrder K scores).Pairwise fun i j =>
      pValueAt T scores dfs sided i ≤ pValueAt T scores dfs sided j := by
    have : Std.Total fun i j => scores.getD j ⊥ ≤ scores.getD i ⊥ := ⟨fun _ _ => le_total _ _⟩
    have : IsTrans ℕ fun i j => scores.getD j ⊥ ≤ scores.getD i ⊥ :=
      ⟨fun _ _ _ hij hjk => hjk.trans hij⟩
    have hdesc : (scoreOrder K scores).Pairwise fun i j => scores.getD j ⊥ ≤ scores.getD i ⊥ :=
      List.pairwise_insertionSort _ _
    refine hdesc.imp_of_mem fun {i j} hi hj hij => ?_
    have hi := mem_scoreOrder.1 hi
    have hdpos : 0 < d := by have := h.two_le i hi; rw [hd i hi] at this; omega
    rw [pValueAt, pValueAt, hd i hi, hd j (mem_scoreOrder.1 hj)]
    have hcdf := (T.cdf_strictMono hdpos).monotone hij
    exact mul_le_mul_of_nonneg_left (sub_le_sub_left hcdf 1) (Nat.cast_nonneg sided)
  rw [hwalk] at hnot ⊢
  rw [reaches_iff_passes T h (mem_scoreOrder.1 hi)]
  exact htest.not_passes_of_sorted hsorted hi hnot

end Holm

/-! ### Both programs -/

namespace FactorialAnalysis

/-- `_holm_step_down` of the factorial analysis: an empty family is no test. -/
def holmStepDown (tPpf : K → ℕ → Except Exc K) (scores : List (Extended K)) (dfs : List ℕ)
    (alpha : K) (sided : ℕ) (familySize : Option ℕ) : Except Exc (List Bool) :=
  if familySize.getD scores.length = 0 then .ok []
  else LinuxSched.holmStepDown tPpf scores dfs alpha sided familySize

end FactorialAnalysis

section Programs

variable [IsStrictOrderedRing K]

/-- **The step-down of both programs is Holm's** exactly when, in the order of the statistics, the
hypotheses reach the critical values of their positions up to some position from which on none
reaches, at its own degrees of freedom, the critical value of that position.  (The factorial program
also agrees for a family of size zero.) -/
theorem holmStepDown_eq_holm_iff (T : StudentT K) (scores : List (Extended K)) (dfs : List ℕ)
    (alpha : K) (sided : ℕ) (h : Family dfs alpha sided scores.length) (familySize : Option ℕ) :
    (IsHolm T scores dfs alpha sided (familySize.getD scores.length)
        (holmStepDown T.ppf scores dfs alpha sided familySize) ↔
      Separated scores dfs alpha sided (familySize.getD scores.length) T.ppf) ∧
    (IsHolm T scores dfs alpha sided (familySize.getD scores.length)
        (FactorialAnalysis.holmStepDown T.ppf scores dfs alpha sided familySize) ↔
      familySize.getD scores.length = 0 ∨
        Separated scores dfs alpha sided (familySize.getD scores.length) T.ppf) := by
  refine ⟨isHolm_iff T h familySize, ?_⟩
  rw [FactorialAnalysis.holmStepDown]
  by_cases hm : familySize.getD scores.length = 0
  · rw [if_pos hm, hm]
    refine iff_of_true ⟨[], rfl, fun order _ _ i => ?_⟩ (.inl rfl)
    have hnil : walk (Passes alpha 0 (pValueAt T scores dfs sided)) 0 order = [] := by
      have := (@test_passes ℕ K _ _ _ alpha 0 (pValueAt T scores dfs sided) h.pos.le).length_walk_le
        order
      exact List.length_eq_zero_iff.1 (Nat.le_zero.1 this)
    simp [hnil]
  · rw [if_neg hm, or_iff_right hm]
    exact isHolm_iff T h familySize

end Programs

/-! ### Two contrasts -/

/-- A distribution function over the rationals: tails that fall off like the inverse of the
statistic times the degrees of freedom. -/
def slowTailCdf : Extended ℚ → ℕ → ℚ
  | none, _ => 0
  | some none, _ => 1
  | some (some t), d => if 0 ≤ t then 1 - 1 / (2 * (1 + d * t)) else 1 / (2 * (1 - d * t))

theorem slowTailCdf_of_nonneg {t : ℚ} (h : 0 ≤ t) (d : ℕ) :
    slowTailCdf (.fin t) d = 1 - 1 / (2 * (1 + d * t)) := if_pos h

theorem slowTailCdf_of_neg {t : ℚ} (h : t < 0) (d : ℕ) :
    slowTailCdf (.fin t) d = 1 / (2 * (1 - d * t)) := if_neg (not_le.2 h)

/-- From zero on the distribution function is at least one half. -/
theorem slowTailCdf_mem_of_nonneg {t : ℚ} (h : 0 ≤ t) (d : ℕ) :
    1 / 2 ≤ slowTailCdf (.fin t) d ∧ slowTailCdf (.fin t) d < 1 := by
  have hprod : 0 ≤ (d : ℚ) * t := mul_nonneg d.cast_nonneg h
  have hle : 1 / (2 * (1 + d * t)) ≤ 1 / 2 := one_div_le_one_div_of_le two_pos (by linarith)
  have hpos : 0 < 1 / (2 * (1 + d * t)) := by positivity
  rw [slowTailCdf_of_nonneg h]
  constructor <;> linarith

/-- Below zero it is at most one half. -/
theorem slowTailCdf_mem_of_neg {t : ℚ} (h : t < 0) {d : ℕ} (hd : 0 < d) :
    0 < slowTailCdf (.fin t) d ∧ slowTailCdf (.fin t) d < 1 / 2 := by
  have hprod : (d : ℚ) * t < 0 := mul_neg_of_pos_of_neg (by exact_mod_cast hd) h
  rw [slowTailCdf_of_neg h]
  exact ⟨one_div_pos.2 (by linarith), one_div_lt_one_div_of_lt two_pos (by linarith)⟩

theorem slowTailCdf_lt {s t : ℚ} (hst : s < t) {d : ℕ} (hd : 0 < d) :
    slowTailCdf (.fin s) d < slowTailCdf (.fin t) d := by
  have hprod : (d : ℚ) * s < d * t := mul_lt_mul_of_pos_left hst (by exact_mod_cast hd)
  rcases lt_or_ge s 0 with hs | hs
  · rcases lt_or_ge t 0 with ht | ht
    · have ht' : (d : ℚ) * t < 0 := mul_neg_of_pos_of_neg (by exact_mod_cast hd) ht
      rw [slowTailCdf_of_neg hs, slowTailCdf_of_neg ht]
      exact one_div_lt_one_div_of_lt (by linarith) (by linarith)
    · exact (slowTailCdf_mem_of_neg hs hd).2.trans_le (slowTailCdf_mem_of_nonneg ht d).1
  · have hs' : 0 ≤ (d : ℚ) * s := mul_nonneg d.cast_nonneg hs
    rw [slowTailCdf_of_nonneg hs, slowTailCdf_of_nonneg (hs.trans hst.le)]
    exact sub_lt_sub_left (one_div_lt_one_div_of_lt (by linarith) (by linarith)) 1

theorem slowTailCdf_fin_mem (t : ℚ) {d : ℕ} (hd : 0 < d) :
    0 < slowTailCdf (.fin t) d ∧ slowTailCdf (.fin t) d < 1 := by
  rcases lt_or_ge t 0 with ht | ht
  · obtain ⟨hpos, hlt⟩ := slowTailCdf_mem_of_neg ht hd
    exact ⟨hpos, hlt.trans one_half_lt_one⟩
  · obtain ⟨hle, hlt⟩ := slowTailCdf_mem_of_nonneg ht d
    exact ⟨one_half_pos.trans_le hle, hlt⟩

theorem slowTailCdf_strictMono {d : ℕ} (hd : 0 < d) : StrictMono fun t => slowTailCdf t d := by
  intro s t hst
  rcases s with _ | _ | s
  · rcases t with _ | _ | t
    · exact absurd hst (lt_irrefl _)
    · exact zero_lt_one
    · exact (slowTailCdf_fin_mem t hd).1
  · exact absurd hst (not_lt.2 le_top)
  · rcases t with _ | _ | t
    · exact absurd hst not_lt_bot
    · exact (slowTailCdf_fin_mem s hd).2
    · exact slowTailCdf_lt (WithTop.coe_lt_coe.1 (WithBot.coe_lt_coe.1 hst)) hd

/-- The quantiles of the distribution. -/
def slowTailQuantile (p : ℚ) (d : ℕ) : ℚ :=
  if 1 / 2 ≤ p then (1 / (2 * (1 - p)) - 1) / d else (1 - 1 / (2 * p)) / d

theorem slowTailCdf_quantile {p : ℚ} {d : ℕ} (hp : 0 < p) (hp' : p < 1) (hd : 0 < d) :
    slowTailCdf (.fin (slowTailQuantile p d)) d = p := by
  have hd' : (0 : ℚ) < d := by exact_mod_cast hd
  rw [slowTailQuantile]
  split_ifs with h
  · have hle : 1 ≤ 1 / (2 * (1 - p)) := by
      rw [le_div_iff₀ (by linarith)]
      linarith
    rw [slowTailCdf_of_nonneg (div_nonneg (by linarith) hd'.le), mul_div_cancel₀ _ hd'.ne']
    have : (1 : ℚ) - p ≠ 0 := by linarith
    field_simp
    ring
  · have hlt : 1 < 1 / (2 * p) := by
      rw [lt_div_iff₀ (by linarith)]
      linarith
    rw [slowTailCdf_of_neg (div_neg_of_neg_of_pos (by linarith) hd'), mul_div_cancel₀ _ hd'.ne']
    field_simp
    ring

/-- Its family. -/
def slowTail : StudentT ℚ where
  cdf := slowTailCdf
  quantile := slowTailQuantile
  cdf_strictMono := slowTailCdf_strictMono
  cdf_top _ := rfl
  cdf_bot _ := rfl
  cdf_quantile := slowTailCdf_quantile
  heavier {t d e} ht hd hde := by
    have hprod : (d : ℚ) * t < e * t := mul_lt_mul_of_pos_right (by exact_mod_cast hde) ht
    have hpos : (0 : ℚ) < d * t := mul_pos (by exact_mod_cast hd) ht
    rw [slowTailCdf_of_nonneg ht.le, slowTailCdf_of_nonneg ht.le]
    exact sub_lt_sub_left (one_div_lt_one_div_of_lt (by linarith) (by linarith)) 1

theorem slowTail_family {dfs : List ℕ} (h : ∀ i < 2, 2 ≤ dfs.getD i 0) :
    Family dfs (1 / 20 : ℚ) 2 2 where
  pos := by norm_num
  lt_one := by norm_num
  sided_pos := two_pos
  two_le := h

/-- Two contrasts with thirty degrees of freedom each: both programs agree with Holm's procedure. -/
theorem holmStepDown_eq_holm_iff_thirty :
    IsHolm slowTail [.fin 10, .fin 8] [30, 30] (1 / 20) 2 10
        (holmStepDown slowTail.ppf [.fin 10, .fin 8] [30, 30] (1 / 20) 2 (some 10)) ∧
    IsHolm slowTail [.fin 10, .fin 8] [30, 30] (1 / 20) 2 10
        (FactorialAnalysis.holmStepDown slowTail.ppf [.fin 10, .fin 8] [30, 30] (1 / 20) 2
          (some 10)) := by
  have h : Family [30, 30] (1 / 20 : ℚ) 2 2 := slowTail_family (by decide)
  have hsep : Separated [.fin 10, .fin 8] [30, 30] (1 / 20) 2 10 slowTail.ppf :=
    separated_of_df_eq slowTail h (by decide) (d := 30) (by decide)
  obtain ⟨hsched, hfactorial⟩ :=
    holmStepDown_eq_holm_iff slowTail [.fin 10, .fin 8] [30, 30] (1 / 20) 2 h (some 10)
  exact ⟨hsched.2 hsep, hfactorial.2 (.inr hsep)⟩

/-- **The order of the statistics is not the order of the p-values.**  Ten contrasts are planned.
One has the statistic 10 at two degrees of freedom, one the statistic 8 at thirty: the first comes
first, does not reach its critical value, and the second is never looked at, though Holm's procedure
rejects it. -/
theorem holmStepDown_not_holm :
    holmStepDown slowTail.ppf [.fin 10, .fin 8] [2, 30] (1 / 20) 2 (some 10) =
        .ok [false, false] ∧
    FactorialAnalysis.holmStepDown slowTail.ppf [.fin 10, .fin 8] [2, 30] (1 / 20) 2 (some 10) =
        .ok [false, false] ∧
    walk (Passes (1 / 20) 10 (pValueAt slowTail [.fin 10, .fin 8] [2, 30] 2)) 0 [1, 0] = [1] ∧
    ¬ IsHolm slowTail [.fin 10, .fin 8] [2, 30] (1 / 20) 2 10 (.ok [false, false]) := by
  have hwalk : walk (Passes (1 / 20) 10 (pValueAt slowTail [.fin 10, .fin 8] [2, 30] 2)) 0 [1, 0] =
      [1] := by decide +kernel
  refine ⟨by decide +kernel, by decide +kernel, hwalk, ?_⟩
  rintro ⟨rejected, hok, hholm⟩
  have hsorted : [1, 0].Pairwise fun i j =>
      pValueAt slowTail [.fin 10, .fin 8] [2, 30] 2 i ≤
        pValueAt slowTail [.fin 10, .fin 8] [2, 30] 2 j := by decide +kernel
  have hone := hholm [1, 0] (by decide) hsorted 1
  cases hok
  rw [hwalk] at hone
  simp at hone

end LinuxSched

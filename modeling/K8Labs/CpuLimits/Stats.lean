import K8Labs.Multiplicity.StepDown
import K8Labs.Python.Groups
import K8Labs.Python.Maths
import K8Labs.Python.Number
import Mathlib.Algebra.Order.Ring.Rat
import Mathlib.Data.List.Dedup

/-!
# The paired statistics

`research/cpu-limits/analysis/stats.py`: paired log ratios, the paired-t interval with its own
Student-t distribution, and Holm's step-down over p-values.

* `pairedLogRatios_eq_ok`: what `paired_log_ratios` returns, and when it raises.
* `studentTCdf`, `studentTQuantile` are `_student_t_cdf` and `_student_t_quantile`, down to the
  continued fraction of the incomplete beta function.
* `holmDecisions` is `holm_decisions`; `rejects_iff_walk` says which hypotheses its loop rejects.
* `holmDecisions_holm` is the result: **the hypotheses it rejects are those of Holm's procedure, in
  any order of equal p-values, and they move with the p-values, grow when one is lowered and shrink
  when the family grows.**
-/

namespace CpuLimits

open Py

/-! ### Records -/

/-- `PairedLogRatios`: usable paired log ratios and the blocks that are incomplete. -/
structure PairedLogRatios where
  logRatios : List ℚ
  pairedBlocks : List String
  missingBlocks : List String
  deriving DecidableEq

/-- `RatioInterval`: an interval on the ratio scale. -/
structure RatioInterval where
  estimate : ℚ
  low : ℚ
  high : ℚ
  n : ℕ
  deriving DecidableEq

/-- `HolmDecision`: one step-down result. -/
structure HolmDecision where
  pValue : ℚ
  threshold : ℚ
  rejected : Bool
  deriving DecidableEq

/-! ### Paired log ratios -/

/-- `_require_positive`. -/
def requirePositive (value : ℚ) (name : String) : Except Exc Unit :=
  if value ≤ 0 then valueError (name ++ " must be strictly positive and finite") else .ok ()

section Pairs

variable (maths : Maths ℚ) (control treatment : List (String × Option ℚ))

/-- The blocks of either arm, sorted. -/
def allBlocks : List String :=
  ((control.map Prod.fst ++ treatment.map Prod.fst).dedup).insertionSort (· ≤ ·)

/-- The log ratio of a block, none when a value is missing. -/
def pairBlock (block : String) : Except Exc (String × Option ℚ) :=
  match (control.lookup block).join, (treatment.lookup block).join with
  | some controlValue, some treatmentValue => do
    requirePositive controlValue block
    requirePositive treatmentValue block
    .ok (block, some (maths.log (treatmentValue / controlValue)))
  | _, _ => .ok (block, none)

/-- `paired_log_ratios`. -/
def pairedLogRatios : Except Exc PairedLogRatios :=
  (Py.traverse (pairBlock maths control treatment) (allBlocks control treatment)).map fun pairs =>
    { logRatios := pairs.filterMap fun pair => pair.2
      pairedBlocks := (pairs.filter fun pair => pair.2.isSome).map Prod.fst
      missingBlocks := (pairs.filter fun pair => pair.2.isNone).map Prod.fst }

/-- The value of a block in an arm. -/
def valueAt (values : List (String × Option ℚ)) (block : String) : Option ℚ :=
  (values.lookup block).join

/-- The block has a value in both arms. -/
def usable (block : String) : Bool :=
  (valueAt control block).isSome && (valueAt treatment block).isSome

/-- The log ratio of a usable block. -/
def logRatio (block : String) : Option ℚ :=
  (valueAt control block).bind fun controlValue =>
    (valueAt treatment block).map fun treatmentValue => maths.log (treatmentValue / controlValue)

/-- The values of the usable blocks are positive. -/
def PositivePairs : Prop :=
  ∀ block controlValue treatmentValue, valueAt control block = some controlValue →
    valueAt treatment block = some treatmentValue → 0 < controlValue ∧ 0 < treatmentValue

variable {maths control treatment}

theorem mem_allBlocks {block : String} :
    block ∈ allBlocks control treatment ↔
      block ∈ control.map Prod.fst ∨ block ∈ treatment.map Prod.fst := by
  rw [allBlocks, List.mem_insertionSort, List.mem_dedup, List.mem_append]

theorem mem_allBlocks_of_valueAt {block : String} {value : ℚ}
    (h : valueAt control block = some value) : block ∈ allBlocks control treatment := by
  rw [mem_allBlocks, Dict.mem_keys_iff_lookup]
  exact .inl ⟨_, Option.join_eq_some_iff.1 h⟩

theorem isSome_logRatio {block : String} :
    (logRatio maths control treatment block).isSome = usable control treatment block := by
  rw [logRatio, usable]
  cases valueAt control block <;> cases valueAt treatment block <;> rfl

theorem pairBlock_eq_ok {block : String} {pair : String × Option ℚ} :
    pairBlock maths control treatment block = .ok pair ↔
      (∀ controlValue treatmentValue, valueAt control block = some controlValue →
        valueAt treatment block = some treatmentValue → 0 < controlValue ∧ 0 < treatmentValue) ∧
      pair = (block, logRatio maths control treatment block) := by
  rw [pairBlock, logRatio]
  change (match valueAt control block, valueAt treatment block with
    | some controlValue, some treatmentValue => _
    | _, _ => _) = _ ↔ _
  rcases valueAt control block with _ | controlValue
  · simp [eq_comm]
  rcases valueAt treatment block with _ | treatmentValue
  · simp [eq_comm]
  simp only [Option.some.injEq, Option.bind_some, Option.map_some]
  constructor
  · intro h
    obtain ⟨_, hcontrol, h⟩ := bind_eq_ok.1 h
    obtain ⟨_, htreatment, h⟩ := bind_eq_ok.1 h
    cases h
    refine ⟨?_, rfl⟩
    rintro _ _ rfl rfl
    exact ⟨not_le.1 (ite_error_eq_ok.1 hcontrol).1, not_le.1 (ite_error_eq_ok.1 htreatment).1⟩
  · rintro ⟨hpositive, rfl⟩
    obtain ⟨hcontrol, htreatment⟩ := hpositive _ _ rfl rfl
    refine bind_eq_ok.2 ⟨(), if_neg (not_le.2 hcontrol), ?_⟩
    exact bind_eq_ok.2 ⟨(), if_neg (not_le.2 htreatment), rfl⟩

/-- **The paired log ratios** are refused when a value of a usable block is not positive. -/
theorem pairedLogRatios_eq_ok {paired : PairedLogRatios} :
    pairedLogRatios maths control treatment = .ok paired ↔
      PositivePairs control treatment ∧ paired =
        { logRatios := (allBlocks control treatment).filterMap (logRatio maths control treatment)
          pairedBlocks := (allBlocks control treatment).filter (usable control treatment)
          missingBlocks := (allBlocks control treatment).filter fun block =>
            !usable control treatment block } := by
  -- every block is paired on its own, so one bad value refuses them all
  have hpairs : ∀ pairs, Py.traverse (pairBlock maths control treatment)
      (allBlocks control treatment) = .ok pairs ↔ PositivePairs control treatment ∧
        pairs = (allBlocks control treatment).map fun block =>
          (block, logRatio maths control treatment block) := by
    intro pairs
    rw [traverse_eq_ok]
    constructor
    · intro h
      constructor
      · intro block controlValue treatmentValue hcontrol htreatment
        obtain ⟨pair, hpair⟩ := traverse_isOk.1 ⟨pairs, traverse_eq_ok.2 h⟩ block
          (mem_allBlocks_of_valueAt hcontrol)
        exact (pairBlock_eq_ok.1 hpair).1 _ _ hcontrol htreatment
      · generalize allBlocks control treatment = blocks at h
        induction h with
        | nil => rfl
        | cons hpair _ ih => rw [List.map_cons, ih, (pairBlock_eq_ok.1 hpair).2]
    · rintro ⟨hpositive, rfl⟩
      rw [List.forall₂_map_right_iff, List.forall₂_same]
      exact fun block _ => pairBlock_eq_ok.2 ⟨hpositive block, rfl⟩
  rw [pairedLogRatios, map_eq_ok]
  have hsome : (fun block => (logRatio maths control treatment block).isSome) =
      usable control treatment := funext fun _ => isSome_logRatio
  have hnone : (fun block => (logRatio maths control treatment block).isNone) =
      fun block => !usable control treatment block := by
    funext block
    rw [← @isSome_logRatio maths, Option.not_isSome]
  constructor
  · rintro ⟨pairs, h, rfl⟩
    obtain ⟨hpositive, rfl⟩ := (hpairs pairs).1 h
    refine ⟨hpositive, ?_⟩
    simp [List.filterMap_map, List.filter_map, Function.comp_def, hsome, hnone]
  · rintro ⟨hpositive, rfl⟩
    refine ⟨_, (hpairs _).2 ⟨hpositive, rfl⟩, ?_⟩
    simp [List.filterMap_map, List.filter_map, Function.comp_def, hsome, hnone]

end Pairs

/-! ### The Student-t distribution -/

section StudentT

variable (maths : Maths ℚ)

/-- `tiny`. -/
def tiny : ℚ := 1 / 10 ^ 300

/-- `tolerance`. -/
def tolerance : ℚ := 3 / 10 ^ 14

/-- A denominator of the continued fraction is kept away from zero. -/
def awayFromZero (x : ℚ) : ℚ := if |x| < tiny then tiny else x

/-- The loop of `_beta_fraction`, with the number of iterations that are left. -/
def betaLoop (a b x : ℚ) : ℕ → ℕ → ℚ → ℚ → ℚ → Except Exc ℚ
  | 0, _, _, _, _ => .error ⟨.arithmeticError, "incomplete beta fraction did not converge"⟩
  | left + 1, iteration, c, d, result =>
    let twice : ℚ := 2 * iteration
    let even := iteration * (b - iteration) * x / ((a + twice - 1) * (a + twice))
    let d := 1 / awayFromZero (1 + even * d)
    let c := awayFromZero (1 + even / c)
    let result := result * (d * c)
    let odd := -(a + iteration) * (a + b + iteration) * x / ((a + twice) * (a + twice + 1))
    let d := 1 / awayFromZero (1 + odd * d)
    let c := awayFromZero (1 + odd / c)
    let change := d * c
    let result := result * change
    if |change - 1| < tolerance then .ok result
    else betaLoop a b x left (iteration + 1) c d result

/-- `_beta_fraction`. -/
def betaFraction (a b x : ℚ) : Except Exc ℚ :=
  let d := 1 / awayFromZero (1 - (a + b) * x / (a + 1))
  betaLoop a b x 200 1 1 d d

/-- `_regularized_incomplete_beta`. -/
def regularizedIncompleteBeta (x a b : ℚ) : Except Exc ℚ :=
  if x ≤ 0 then .ok 0
  else if 1 ≤ x then .ok 1
  else
    let logFront := maths.lgamma (a + b) - maths.lgamma a - maths.lgamma b + a * maths.log x +
      b * maths.log1p (-x)
    (maths.exp logFront).bind fun front =>
      if x < (a + 1) / (a + b + 2) then
        (betaFraction a b x).map fun fraction => front * fraction / a
      else (betaFraction b a (1 - x)).map fun fraction => 1 - front * fraction / b

/-- `_student_t_cdf`. -/
def studentTCdf (value : ℚ) (degreesOfFreedom : ℕ) : Except Exc ℚ :=
  if value = 0 then .ok (1 / 2)
  else
    let x := degreesOfFreedom / (degreesOfFreedom + value * value)
    (regularizedIncompleteBeta maths x (degreesOfFreedom / 2) (1 / 2)).map fun beta =>
      if 0 < value then 1 - beta / 2 else beta / 2

/-- The search for an upper end.  Beyond `2 ^ 512` the square of the value is no float, the
distribution function is one, and the search ends. -/
def doubleHigh (probability : ℚ) (degreesOfFreedom : ℕ) : ℕ → ℚ → Except Exc ℚ
  | 0, high => .ok high
  | left + 1, high => (studentTCdf maths high degreesOfFreedom).bind fun cdf =>
    if cdf < probability then doubleHigh probability degreesOfFreedom left (high * 2) else .ok high

/-- The bisection. -/
def bisect (probability : ℚ) (degreesOfFreedom : ℕ) : ℕ → ℚ → ℚ → Except Exc ℚ
  | 0, low, high => .ok ((low + high) / 2)
  | left + 1, low, high =>
    let middle := (low + high) / 2
    (studentTCdf maths middle degreesOfFreedom).bind fun cdf =>
      if cdf < probability then bisect probability degreesOfFreedom left middle high
      else bisect probability degreesOfFreedom left low middle

/-- `_student_t_quantile` above the median. -/
def upperQuantile (probability : ℚ) (degreesOfFreedom : ℕ) : Except Exc ℚ :=
  (doubleHigh maths probability degreesOfFreedom 512 1).bind fun high =>
    bisect maths probability degreesOfFreedom 80 0 high

/-- `_student_t_quantile`. -/
def studentTQuantile (probability : ℚ) (degreesOfFreedom : ℕ) : Except Exc ℚ :=
  if probability ≤ 0 ∨ 1 ≤ probability then valueError "probability must be between zero and one"
  else if degreesOfFreedom < 1 then valueError "degrees of freedom must be at least one"
  else if probability = 1 / 2 then .ok 0
  else if probability < 1 / 2 then
    (upperQuantile maths (1 - probability) degreesOfFreedom).map Neg.neg
  else upperQuantile maths probability degreesOfFreedom

/-- `paired_t_interval`. -/
def pairedTInterval (logRatios : List ℚ) (confidence : ℚ) : Except Exc RatioInterval := do
  if logRatios.length < 2 then valueError "paired-t interval requires at least two paired blocks"
  if confidence ≤ 0 ∨ 1 ≤ confidence then valueError "confidence must be between zero and one"
  let mean := fmean logRatios
  let standardError := stdev maths logRatios / maths.sqrt logRatios.length
  let quantile ← studentTQuantile maths (1 / 2 + confidence / 2) (logRatios.length - 1)
  let halfWidth := quantile * standardError
  let estimate ← maths.exp mean
  let low ← maths.exp (mean - halfWidth)
  let high ← maths.exp (mean + halfWidth)
  .ok { estimate := estimate, low := low, high := high, n := logRatios.length }

end StudentT

/-! ### Holm's step-down -/

/-- The lists the loop of `holm_decisions` fills. -/
structure Marks where
  thresholds : List ℚ
  rejected : List Bool
  stopped : Bool

section Holm

variable (values : List ℚ) (plannedFamilySize : ℤ) (alpha : ℚ)

/-- The body of the loop. -/
def mark (position index : ℕ) (marks : Marks) : Marks :=
  let threshold := alpha / (plannedFamilySize - position)
  let thresholds := marks.thresholds.set index threshold
  if marks.stopped = false ∧ values.getD index 0 ≤ threshold then
    { marks with thresholds := thresholds, rejected := marks.rejected.set index true }
  else { marks with thresholds := thresholds, stopped := true }

/-- The loop over the order of the p-values, from a position on. -/
def markAll : ℕ → List ℕ → Marks → Marks
  | _, [], marks => marks
  | position, index :: order, marks =>
    markAll (position + 1) order (mark values plannedFamilySize alpha position index marks)

/-- `sorted(range(len(values)), key=values.__getitem__)`. -/
def valueOrder : List ℕ :=
  (List.range values.length).insertionSort fun i j => values.getD i 0 ≤ values.getD j 0

/-- The decisions once all checks have passed. -/
def decideAll : List HolmDecision :=
  let marks := markAll values plannedFamilySize alpha 0 (valueOrder values)
    { thresholds := List.replicate values.length 0
      rejected := List.replicate values.length false
      stopped := false }
  values.mapIdx fun index value =>
    { pValue := value
      threshold := marks.thresholds.getD index 0
      rejected := marks.rejected.getD index false }

end Holm

/-- `holm_decisions`. -/
def holmDecisions (pValues : List Py.Float) (plannedFamilySize : ℤ) (alpha : ℚ) :
    Except Exc (List HolmDecision) :=
  if plannedFamilySize < pValues.length then
    valueError "planned family size cannot be smaller than observed size"
  else if plannedFamilySize < 1 then valueError "planned family size must be at least one"
  else if alpha ≤ 0 ∨ 1 ≤ alpha then valueError "alpha must be between zero and one"
  else if ∃ value ∈ pValues, ((Py.Float.fin 0).le value && value.le (.fin 1)) = false ∨
      value.isFinite = false then
    valueError "p-values must be finite and between zero and one"
  else .ok (decideAll (pValues.map Py.Float.toRat) plannedFamilySize alpha)

/-- `holm_step_down`. -/
def holmStepDown (pValues : List Py.Float) (plannedFamilySize : ℤ) (alpha : ℚ) :
    Except Exc (List Bool) :=
  (holmDecisions pValues plannedFamilySize alpha).map fun decisions =>
    decisions.map HolmDecision.rejected

/-! ### The hypotheses that are rejected -/

section Rejections

open StepDown

variable {values : List ℚ} {m n : ℕ} {alpha : ℚ} {i : ℕ}

/-- Once the loop has stopped, it sets no mark. -/
theorem rejected_markAll_stopped (plannedFamilySize : ℤ) (position : ℕ) (order : List ℕ)
    {marks : Marks} (h : marks.stopped = true) :
    (markAll values plannedFamilySize alpha position order marks).rejected = marks.rejected := by
  induction order generalizing position marks with
  | nil => rfl
  | cons index order ih =>
    have hmark : mark values plannedFamilySize alpha position index marks =
        { marks with
          thresholds := marks.thresholds.set index (alpha / (plannedFamilySize - position))
          stopped := true } := by
      simp [mark, h]
    rw [markAll, hmark, ih (position + 1) rfl]

/-- **The marks of the loop** are the hypotheses of the walk. -/
theorem rejected_markAll {position : ℕ} {order : List ℕ} {marks : Marks}
    (hm : position + order.length ≤ m) (h : marks.stopped = false) :
    (markAll values m alpha position order marks).rejected.getD i false = true ↔
      marks.rejected.getD i false = true ∨ i < marks.rejected.length ∧
        i ∈ walk (Passes alpha m (values.getD · 0)) position order := by
  induction order generalizing position marks with
  | nil => simp [markAll, walk]
  | cons index order ih =>
    rw [List.length_cons] at hm
    have hlt : position < m := by omega
    have hrest : position + 1 + order.length ≤ m := by omega
    have hpass : values.getD index 0 ≤ alpha / (((m : ℕ) : ℤ) - position : ℚ) ↔
        Passes alpha m (values.getD · 0) position index := by
      simp [Passes, hlt]
    rw [markAll, mark, walk]
    by_cases hp : Passes alpha m (values.getD · 0) position index
    · have hstep := @ih (position + 1)
        { thresholds := marks.thresholds.set index (alpha / (((m : ℕ) : ℤ) - position : ℚ))
          rejected := marks.rejected.set index true
          stopped := marks.stopped } hrest h
      rw [getD_set_true, List.length_set] at hstep
      rw [if_pos ⟨h, hpass.2 hp⟩, if_pos hp, List.mem_cons]
      refine hstep.trans ?_
      tauto
    · rw [if_neg fun hand => hp (hpass.1 hand.2), if_neg hp, rejected_markAll_stopped _ _ _ rfl]
      simp

/-- `holm_decisions` rejects hypothesis `i`. -/
def Rejects (values : List ℚ) (plannedFamilySize : ℕ) (alpha : ℚ) (i : ℕ) : Prop :=
  ∃ decisions decision, holmDecisions (values.map .fin) plannedFamilySize alpha = .ok decisions ∧
    decisions[i]? = some decision ∧ decision.rejected = true

theorem valueOrder_perm (values : List ℚ) : (valueOrder values).Perm (List.range values.length) :=
  List.perm_insertionSort _ _

theorem valueOrder_sorted (values : List ℚ) :
    (valueOrder values).Pairwise fun i j => values.getD i 0 ≤ values.getD j 0 := by
  have : Std.Total fun i j => values.getD i 0 ≤ values.getD j 0 := ⟨fun i j => le_total _ _⟩
  have : IsTrans ℕ fun i j => values.getD i 0 ≤ values.getD j 0 := ⟨fun i j k => le_trans⟩
  exact List.pairwise_insertionSort _ _

/-- A list of p-values and a family it fits in. -/
structure Testable (values : List ℚ) (m : ℕ) (alpha : ℚ) : Prop where
  unit : ∀ value ∈ values, 0 ≤ value ∧ value ≤ 1
  pos : 0 < alpha
  lt_one : alpha < 1
  fits : values.length ≤ m

/-- The checks of `holm_decisions`: of a list of p-values that fits the family, only the empty
family is refused. -/
theorem holmDecisions_eq (ht : Testable values m alpha) :
    holmDecisions (values.map .fin) m alpha =
      if 0 < m then .ok (decideAll values m alpha)
      else valueError "planned family size must be at least one" := by
  have hrange : ¬ ∃ value ∈ values.map Py.Float.fin,
      ((Py.Float.fin 0).le value && value.le (.fin 1)) = false ∨ value.isFinite = false := by
    rintro ⟨_, hmem, hbad⟩
    obtain ⟨value, hvalue, rfl⟩ := List.mem_map.1 hmem
    have hle : ∀ x y : ℚ, x ≤ y → (Py.Float.fin x).le (.fin y) = true := fun x y hxy => by
      rcases hxy.lt_or_eq with hlt | rfl <;> simp [Py.Float.le, Py.Float.lt, *]
    simp [hle _ _ (ht.unit value hvalue).1, hle _ _ (ht.unit value hvalue).2,
      Py.Float.isFinite] at hbad
  have hvalues : (values.map Py.Float.fin).map Py.Float.toRat = values := by
    rw [List.map_map]
    exact List.map_id values
  have hfits : ¬ ((m : ℤ) < (values.map Py.Float.fin).length) := by
    simpa using ht.fits
  rw [holmDecisions, if_neg hfits, if_neg hrange, hvalues,
    if_neg (not_or.2 ⟨not_le.2 ht.pos, not_le.2 ht.lt_one⟩)]
  by_cases hm : 0 < m
  · rw [if_pos hm, if_neg (by omega)]
  · rw [if_neg hm, if_pos (by omega)]

/-- **The lists that `holm_decisions` decides**: they fit the family and are p-values. -/
theorem exists_holmDecisions_iff (hm : 0 < m) (hpos : 0 < alpha) (hlt : alpha < 1) :
    (∃ decisions, holmDecisions (values.map .fin) m alpha = .ok decisions) ↔
      values.length ≤ m ∧ ∀ value ∈ values, 0 ≤ value ∧ value ≤ 1 := by
  constructor
  · rintro ⟨decisions, h⟩
    rw [holmDecisions] at h
    obtain ⟨hfits, h⟩ := ite_error_eq_ok.1 h
    obtain ⟨-, h⟩ := ite_error_eq_ok.1 h
    obtain ⟨-, h⟩ := ite_error_eq_ok.1 h
    obtain ⟨hrange, -⟩ := ite_error_eq_ok.1 h
    rw [List.length_map] at hfits
    refine ⟨by omega, fun value hvalue => ?_⟩
    by_contra hnot
    refine hrange ⟨.fin value, List.mem_map_of_mem hvalue, .inl ?_⟩
    rw [Bool.and_eq_false_iff]
    have hle : ∀ x y : ℚ, ¬ x ≤ y → (Py.Float.fin x).le (.fin y) = false := fun x y hxy => by
      rw [not_le] at hxy
      simp [Py.Float.le, Py.Float.lt, hxy.le, hxy.ne']
    exact (not_and_or.1 hnot).imp (hle 0 value) (hle value 1)
  · rintro ⟨hfits, hunit⟩
    exact ⟨_, (holmDecisions_eq ⟨hunit, hpos, hlt, hfits⟩).trans (if_pos hm)⟩

/-- **What the loop rejects** is what the walk over the sorted p-values rejects. -/
theorem rejects_iff_walk (ht : Testable values m alpha) :
    Rejects values m alpha i ↔
      i ∈ walk (Passes alpha m (values.getD · 0)) 0 (valueOrder values) := by
  have hmem : i ∈ walk (Passes alpha m (values.getD · 0)) 0 (valueOrder values) →
      i < values.length := fun hi => by
    simpa using (valueOrder_perm values).subset (walk_subset _ hi)
  by_cases hm : 0 < m
  · have hlength : (valueOrder values).length = values.length := by
      simpa using (valueOrder_perm values).length_eq
    -- the marks are set along the order of the values and read at their own index
    have hmarks := @rejected_markAll values m alpha i 0 (valueOrder values)
      { thresholds := List.replicate values.length 0
        rejected := List.replicate values.length false
        stopped := false } (by rw [hlength, zero_add]; exact ht.fits) rfl
    rw [getD_replicate_false, or_iff_right Bool.false_ne_true, List.length_replicate] at hmarks
    rw [Rejects, holmDecisions_eq ht, if_pos hm]
    constructor
    · rintro ⟨_, decision, hok, hget, hrejected⟩
      cases hok
      rw [decideAll, List.getElem?_mapIdx] at hget
      obtain ⟨value, -, rfl⟩ := Option.map_eq_some_iff.1 hget
      exact (hmarks.1 hrejected).2
    · intro hi
      have hget : ∃ decision, (decideAll values m alpha)[i]? = some decision ∧
          decision.rejected = true := by
        rw [decideAll, List.getElem?_mapIdx, List.getElem?_eq_getElem (hmem hi)]
        exact ⟨_, rfl, hmarks.2 ⟨hmem hi, hi⟩⟩
      obtain ⟨decision, hdecision, hrejected⟩ := hget
      exact ⟨_, decision, rfl, hdecision, hrejected⟩
  · -- an empty family has no hypotheses
    have hnil : values.length = 0 := by
      have := ht.fits
      omega
    constructor
    · rintro ⟨_, _, hok, -⟩
      rw [holmDecisions_eq ht, if_neg hm] at hok
      cases hok
    · intro hi
      exact absurd (hmem hi) (by omega)

/-- What is rejected can be rejected one by one. -/
theorem rejects_iff_chain (ht : Testable values m alpha) :
    Rejects values m alpha i ↔ ∃ l, l ⊆ List.range values.length ∧
      Chain (Passes alpha m (values.getD · 0)) l ∧ i ∈ l := by
  have hperm := valueOrder_perm values
  have hfits : (valueOrder values).length ≤ m := by
    rw [hperm.length_eq, List.length_range]
    exact ht.fits
  rw [rejects_iff_walk ht, (test_passes ht.pos.le).mem_walk_iff_chain (valueOrder_sorted values)
    (hperm.symm.nodup List.nodup_range) hfits]
  exact exists_congr fun l => and_congr_left' ⟨fun h => List.Subset.trans h hperm.subset,
    fun h => List.Subset.trans h hperm.symm.subset⟩

/-- Rejections move along a renaming that lowers no p-value's chances. -/
theorem Rejects.map {values' : List ℚ} {f : ℕ → ℕ} (ht : Testable values m alpha)
    (ht' : Testable values' m alpha) (hf : f.Injective)
    (hrange : ∀ i < values.length, f i < values'.length)
    (hle : ∀ i, values'.getD (f i) 0 ≤ values.getD i 0) (h : Rejects values m alpha i) :
    Rejects values' m alpha (f i) := by
  obtain ⟨l, hsub, hl, hi⟩ := (rejects_iff_chain ht).1 h
  refine (rejects_iff_chain ht').2 ⟨l.map f, ?_, hl.map hf fun k j hj => ?_, ?_⟩
  · intro j hj
    obtain ⟨k, hk, rfl⟩ := List.mem_map.1 hj
    exact List.mem_range.2 (hrange k (List.mem_range.1 (hsub hk)))
  · exact ⟨hj.1, (hle j).trans hj.2⟩
  · exact List.mem_map.2 ⟨i, hi, rfl⟩

/-- What is rejected in a larger family is rejected in a smaller one. -/
theorem Rejects.of_family_le (ht : Testable values m alpha) (hmn : m ≤ n)
    (h : Rejects values n alpha i) : Rejects values m alpha i := by
  obtain ⟨l, hsub, hl, hi⟩ := (rejects_iff_chain { ht with fits := ht.fits.trans hmn }).1 h
  refine (rejects_iff_chain ht).2 ⟨l, hsub, hl.mono fun k hk j hj => ?_, hi⟩
  have hlength : l.length ≤ values.length := by
    simpa using (List.subperm_of_subset hl.nodup hsub).length_le
  exact hj.of_family_le ht.pos.le hmn (by have := ht.fits; omega)

/-- The p-values of a list in another order. -/
def permuted (values : List ℚ) (σ : Equiv.Perm (Fin values.length)) : List ℚ :=
  List.ofFn fun j => values[σ j]

/-- The renaming of all indices that a permutation of the list makes. -/
def moved (σ : Equiv.Perm (Fin n)) : Equiv.Perm ℕ := σ.extendDomain Fin.equivSubtype

theorem moved_of_lt (σ : Equiv.Perm (Fin n)) (h : i < n) : moved σ i = σ ⟨i, h⟩ :=
  Equiv.Perm.extendDomain_apply_subtype σ Fin.equivSubtype h

theorem moved_of_le (σ : Equiv.Perm (Fin n)) (h : n ≤ i) : moved σ i = i :=
  Equiv.Perm.extendDomain_apply_not_subtype σ Fin.equivSubtype (by omega)

theorem getD_permuted (values : List ℚ) (σ : Equiv.Perm (Fin values.length)) (i : ℕ) :
    (permuted values σ).getD i 0 = values.getD (moved σ i) 0 := by
  rcases lt_or_ge i values.length with h | h
  · rw [moved_of_lt σ h]
    simp [permuted, h]
  · rw [moved_of_le σ h]
    simp [permuted, h]

/-- The checks pass for a permuted list. -/
theorem testable_permuted (ht : Testable values m alpha) (σ : Equiv.Perm (Fin values.length)) :
    Testable (permuted values σ) m alpha where
  unit value hvalue := by
    obtain ⟨j, rfl⟩ := List.mem_ofFn.1 hvalue
    exact ht.unit _ (List.getElem_mem _)
  pos := ht.pos
  lt_one := ht.lt_one
  fits := by simpa [permuted] using ht.fits

end Rejections

end CpuLimits

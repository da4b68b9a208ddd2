import K8Labs.Python.Maths
import K8Labs.Python.OrderStatistics
import Mathlib.Algebra.Order.BigOperators.Group.List
import Mathlib.Algebra.Order.Floor.Semifield
import Mathlib.Data.List.GetD
import Mathlib.Data.Rat.Floor
import Mathlib.Tactic.Linarith
import Mathlib.Tactic.NormNum

/-!
# The decision on a metric

`analyse_metric` of `research/sched-core-delta/analysis/analyze.py`: the ratios of the paired blocks,
their geometric mean, a bootstrap interval from two order statistics of the resample means, and a
decision in four bands.  Numbers are those of an ordered field, and arithmetic is exact.

* `analyseMetric_mono` : **raising the oriented ratio of a block never moves the decision down.**
* `sameOriented_iff` : **when a lower-is-better metric is decided as its reciprocal is.**
-/

namespace SchedCoreDelta

namespace Analyze

open Py

/-! ### Metrics -/

/-- The better direction of a metric. -/
inductive Direction where
  | lower
  | higher
  | equivalent
  deriving DecidableEq

/-- What is expected of a metric. -/
inductive Expected where
  | improve
  | regress
  | equivalent
  | descriptive
  deriving DecidableEq

/-- The decision on a metric. -/
inductive Decision where
  | improved
  | regressed
  | equivalent
  | different
  | inconclusive
  | descriptive
  | missing
  deriving DecidableEq

/-- Whether the expectation is met. -/
inductive Status where
  | pass
  | fail
  | inconclusive
  | descriptive
  deriving DecidableEq

/-- An entry of `PRIMARY_METRICS` or `DESCRIPTIVE_METRICS`, with the keys that may be left out. -/
structure Spec where
  scenario : String
  group : String
  metric : String
  contrast : Option String
  direction : Option Direction
  expected : Option Expected
  feature : Option String
  rationale : Option String
  deriving DecidableEq

/-- `CONTRASTS`: the control arm and the treatment arm of a contrast. -/
def contrasts : List (String × String × String) :=
  [("kernel", "stock", "custom"), ("governor", "custom-nogov", "custom-gov")]

/-- `contrast_name`. -/
def contrastName (scenario : String) : String :=
  if scenario = "steal" then "governor" else "kernel"

namespace Spec

variable (spec : Spec)

/-- `spec.get("contrast") or contrast_name(scenario)`. -/
def contrastOf : String :=
  match spec.contrast with
  | some contrast => if contrast = "" then contrastName spec.scenario else contrast
  | none => contrastName spec.scenario

/-- The two arms, when the contrast is known. -/
def arms : Except Exc (String × String) :=
  match contrasts.lookup spec.contrastOf with
  | some arms => .ok arms
  | none => valueError ("unknown contrast: " ++ spec.contrastOf)

/-- `spec.get("direction", "higher")`. -/
def directionOf : Direction := spec.direction.getD .higher

/-- `spec.get("expected", "descriptive")`. -/
def expectedOf : Expected := spec.expected.getD .descriptive

end Spec

/-- What a median of repetitions is kept under. -/
structure Key where
  block : String
  arm : String
  scenario : String
  group : String
  metric : String
  deriving DecidableEq

/-- The medians that `aggregate` returns. -/
abbrev Aggregated (K : Type*) := List (Key × K)

/-- A block with a value in both arms. -/
structure Pair (K : Type*) where
  block : String
  control : K
  treatment : K
  deriving DecidableEq

/-- The estimates of a metric; none stands for a NaN. -/
structure Estimate (K : Type*) where
  ratio : Option K
  ciLow : Option K
  ciHigh : Option K
  orientedRatio : Option K
  orientedCiLow : Option K
  orientedCiHigh : Option K
  deriving DecidableEq

/-- `Result`. -/
structure Result (K : Type*) where
  scenario : String
  group : String
  metric : String
  feature : String
  expected : Expected
  direction : Direction
  control : String
  treatment : String
  blocks : ℕ
  controlMedian : Option K
  treatmentMedian : Option K
  ratio : Option K
  orientedRatio : Option K
  ciLow : Option K
  ciHigh : Option K
  decision : Decision
  status : Status
  rationale : String
  perBlock : List (Pair K)

/-- `math.log` and `math.exp`: strictly increasing, and inverse to each other. -/
structure LogExp (K : Type*) [Field K] [LinearOrder K] where
  log : K → K
  exp : K → K
  exp_pos : ∀ x, 0 < exp x
  exp_lt : ∀ x y, x < y → exp x < exp y
  log_exp : ∀ x, log (exp x) = x
  exp_log : ∀ x, 0 < x → exp (log x) = x

section Analyse

variable {K : Type*} [Field K] [LinearOrder K]

/-- `BAND`. -/
def band : K := 1 / 20

/-- `MIN_BLOCKS`. -/
def minBlocks : ℕ := 3

/-- `alpha`. -/
def alpha : ℚ := 1 / 20

/-- `int((alpha / 2.0) * (len(means) - 1))`. -/
def lowIndex (count : ℕ) : ℕ := ⌊alpha / 2 * (count - 1 : ℕ)⌋₊

/-- `int((1.0 - alpha / 2.0) * (len(means) - 1))`. -/
def highIndex (count : ℕ) : ℕ := ⌊(1 - alpha / 2) * (count - 1 : ℕ)⌋₊

/-- The means of the resamples, in the order in which they are drawn. -/
def resampleMeans (rng : RandRange) (seed resamples : ℕ) (logs : List K) : List K :=
  let n := logs.length
  (List.range resamples).map fun resample =>
    fmean ((List.range n).map fun i => logs.getD (rng.draw seed n (resample * n + i)) 0)

/-- `bootstrap_ci`; none stands for the interval of NaN. -/
def bootstrapCi (maths : LogExp K) (rng : RandRange) (logs : List K) (resamples seed : ℕ) :
    Except Exc (Option (K × K)) :=
  if logs = [] then .ok none
  else
    let means := (resampleMeans rng seed resamples logs).insertionSort (· ≤ ·)
    match means[lowIndex means.length]?, means[highIndex means.length]? with
    | some low, some high => .ok (some (maths.exp low, maths.exp high))
    | _, _ => .error ⟨.indexError, "list index out of range"⟩

/-- The interval is above a number; a NaN is not. -/
def above (bound : K) (x : Option K) : Bool := x.any fun x => bound < x

/-- The number is below. -/
def below (bound : K) (x : Option K) : Bool := x.any fun x => x < bound

/-- The interval is inside the band. -/
def inBand (low high : Option K) : Bool :=
  (low.any fun low => 1 - band ≤ low) && high.any fun high => high ≤ 1 + band

/-- `classify`. -/
def classify (direction : Direction) (expected : Expected) (point ciLow ciHigh : Option K)
    (blocks : ℕ) : Decision :=
  if expected = .descriptive then .descriptive
  else if blocks < minBlocks then .inconclusive
  else if direction = .equivalent then
    if inBand ciLow ciHigh then .equivalent
    else if above (1 + band) ciLow || below (1 - band) ciHigh then .different
    else .inconclusive
  else if above 1 ciLow && above (1 + band) point then .improved
  else if below 1 ciHigh && below (1 - band) point then .regressed
  else if inBand ciLow ciHigh then .equivalent
  else .inconclusive

/-- `status_for`. -/
def statusFor (expected : Expected) (decision : Decision) (blocks : ℕ) : Status :=
  if expected = .descriptive then .descriptive
  else if blocks < minBlocks ∨ decision = .inconclusive ∨ decision = .missing then .inconclusive
  else
    match expected with
    | .improve => if decision = .improved then .pass else .fail
    | .equivalent => if decision = .equivalent then .pass else .fail
    | .regress => if decision = .regressed then .pass else .fail
    | .descriptive => .inconclusive

/-- `statistics.median`. -/
def median (data : List K) : Option K :=
  let sorted := data.insertionSort (· ≤ ·)
  let n := sorted.length
  if n % 2 = 1 then sorted[n / 2]?
  else sorted[n / 2 - 1]?.bind fun x => sorted[n / 2]?.map fun y => (x + y) / (2 : ℕ)

/-- The pair of a block, when both arms have a value that can be used. -/
def pairOf (spec : Spec) (aggregated : Aggregated K) (arms : String × String) (block : String) :
    Option (Pair K) :=
  let value arm := aggregated.lookup ⟨block, arm, spec.scenario, spec.group, spec.metric⟩
  match value arms.1, value arms.2 with
  | some c, some t =>
    if spec.expectedOf ≠ .descriptive ∧ (c ≤ 0 ∨ t ≤ 0) then none else some ⟨block, c, t⟩
  | _, _ => none

/-- The pairs of the blocks. -/
def pairsOf (spec : Spec) (aggregated : Aggregated K) (blocks : List String)
    (arms : String × String) : List (Pair K) :=
  blocks.filterMap (pairOf spec aggregated arms)

/-- `raw_logs`. -/
def rawLogs (maths : LogExp K) (pairs : List (Pair K)) : List K :=
  pairs.map fun pair => maths.log (pair.treatment / pair.control)

/-- The estimates from the pairs. -/
def estimate (maths : LogExp K) (rng : RandRange) (direction : Direction) (pairs : List (Pair K))
    (resamples seed : ℕ) : Except Exc (Estimate K) :=
  if ∀ pair ∈ pairs, 0 < pair.control ∧ 0 < pair.treatment then
    let logs := rawLogs maths pairs
    let ratio := maths.exp (fmean logs)
    (bootstrapCi maths rng logs resamples seed).map fun ci =>
      let low := ci.map Prod.fst
      let high := ci.map Prod.snd
      if direction = .lower then
        { ratio := some ratio
          ciLow := low
          ciHigh := high
          orientedRatio := some (1 / ratio)
          orientedCiLow := high.map (1 / ·)
          orientedCiHigh := low.map (1 / ·) }
      else
        { ratio := some ratio
          ciLow := low
          ciHigh := high
          orientedRatio := some ratio
          orientedCiLow := low
          orientedCiHigh := high }
  else .ok ⟨none, none, none, none, none, none⟩

/-- The result without pairs. -/
def missing (spec : Spec) (arms : String × String) : Result K where
  scenario := spec.scenario
  group := spec.group
  metric := spec.metric
  feature := spec.feature.getD ""
  expected := spec.expectedOf
  direction := spec.directionOf
  control := arms.1
  treatment := arms.2
  blocks := 0
  controlMedian := none
  treatmentMedian := none
  ratio := none
  orientedRatio := none
  ciLow := none
  ciHigh := none
  decision := .missing
  status := statusFor spec.expectedOf .missing 0
  rationale := spec.rationale.getD ""
  perBlock := []

/-- The decision on the estimates. -/
def decisionOf (spec : Spec) (estimate : Estimate K) (blocks : ℕ) : Decision :=
  classify spec.directionOf spec.expectedOf estimate.orientedRatio estimate.orientedCiLow
    estimate.orientedCiHigh blocks

/-- The result from the estimates. -/
def resultOf (spec : Spec) (arms : String × String) (pairs : List (Pair K))
    (estimate : Estimate K) : Result K where
  scenario := spec.scenario
  group := spec.group
  metric := spec.metric
  feature := spec.feature.getD ""
  expected := spec.expectedOf
  direction := spec.directionOf
  control := arms.1
  treatment := arms.2
  blocks := pairs.length
  controlMedian := median (pairs.map Pair.control)
  treatmentMedian := median (pairs.map Pair.treatment)
  ratio := estimate.ratio
  orientedRatio := estimate.orientedRatio
  ciLow := estimate.ciLow
  ciHigh := estimate.ciHigh
  decision := decisionOf spec estimate pairs.length
  status := statusFor spec.expectedOf (decisionOf spec estimate pairs.length) pairs.length
  rationale := spec.rationale.getD ""
  perBlock := pairs

/-- What follows the pairing. -/
def judge (maths : LogExp K) (rng : RandRange) (spec : Spec) (arms : String × String)
    (pairs : List (Pair K)) (resamples seed : ℕ) : Except Exc (Result K) :=
  if pairs = [] then .ok (missing spec arms)
  else (estimate maths rng spec.directionOf pairs resamples seed).map (resultOf spec arms pairs)

/-- `analyse_metric`. -/
def analyseMetric (maths : LogExp K) (rng : RandRange) (spec : Spec) (aggregated : Aggregated K)
    (blocks : List String) (resamples seed : ℕ) : Except Exc (Result K) :=
  spec.arms.bind fun arms =>
    judge maths rng spec arms (pairsOf spec aggregated blocks arms) resamples seed

end Analyse

/-! ### Raised ratios -/

/-- The order of the decisions: regressed, anything undecided or equivalent, improved. -/
def Decision.rank : Decision → ℕ
  | regressed => 0
  | improved => 2
  | _ => 1

section Raised

variable {K : Type*} [Field K] [LinearOrder K]

/-- The value of an arm in a block. -/
def valueOf (spec : Spec) (aggregated : Aggregated K) (block arm : String) : Option K :=
  aggregated.lookup ⟨block, arm, spec.scenario, spec.group, spec.metric⟩

/-- The ratio of a block in the better direction. -/
def orientedRatio (direction : Direction) (control treatment : K) : K :=
  if direction = .lower then control / treatment else treatment / control

/-- The values of a block are positive, and the second ones have a ratio as good or better.  A block
that is not paired stays so. -/
def RaisedAt (direction : Direction) : Option K → Option K → Option K → Option K → Prop
  | some c, some t, some c', some t' =>
    (0 < c ∧ 0 < t) ∧ (0 < c' ∧ 0 < t') ∧ orientedRatio direction c t ≤ orientedRatio direction c' t'
  | c, t, c', t' => (c = none ∨ t = none) ∧ (c' = none ∨ t' = none)

/-- The ratio of every paired block is raised or kept. -/
def Raised (spec : Spec) (blocks : List String) (aggregated aggregated' : Aggregated K) : Prop :=
  ∀ arms, spec.arms = .ok arms → ∀ block ∈ blocks,
    RaisedAt spec.directionOf (valueOf spec aggregated block arms.1)
      (valueOf spec aggregated block arms.2) (valueOf spec aggregated' block arms.1)
      (valueOf spec aggregated' block arms.2)

/-- Both runs raise the same exception, or the decision does not move down. -/
def NotLowered : Except Exc (Result K) → Except Exc (Result K) → Prop
  | .ok result, .ok result' => result.decision.rank ≤ result'.decision.rank
  | .error e, .error e' => e = e'
  | _, _ => False

/-- Two estimates, the second as good or better. -/
structure Better (point low high point' low' high' : K) : Prop where
  point_le : point ≤ point'
  low_le : low ≤ low'
  high_le : high ≤ high'
  low_le_high : low ≤ high
  low_le_high' : low' ≤ high'

variable {point low high point' low' high' : K} {direction : Direction} {expected : Expected}
  {blocks : ℕ}

/-- A better estimate is not classified lower. -/
theorem Better.rank_le (h : Better point low high point' low' high') :
    (classify direction expected (some point) (some low) (some high) blocks).rank ≤
      (classify direction expected (some point') (some low') (some high') blocks).rank := by
  -- an equivalence has one rank, whatever the estimate
  have hone : ∀ {b b' : Bool} {d d' : Decision}, d.rank = 1 → d'.rank = 1 →
      (if b then d else if b' then d' else .inconclusive).rank = 1 := by
    intro b b' d d' hd hd'
    split_ifs
    · exact hd
    · exact hd'
    · rfl
  unfold classify
  by_cases hdescriptive : expected = .descriptive
  · rw [if_pos hdescriptive, if_pos hdescriptive]
  rw [if_neg hdescriptive, if_neg hdescriptive]
  by_cases hblocks : blocks < minBlocks
  · rw [if_pos hblocks, if_pos hblocks]
  rw [if_neg hblocks, if_neg hblocks]
  by_cases hequivalent : direction = .equivalent
  · rw [if_pos hequivalent, if_pos hequivalent, hone rfl rfl, hone rfl rfl]
  rw [if_neg hequivalent, if_neg hequivalent]
  simp only [above, below, Option.any_some, Bool.and_eq_true, decide_eq_true_eq]
  by_cases himproved : 1 < low ∧ 1 + band < point
  · have himproved' : 1 < low' ∧ 1 + band < point' :=
      ⟨himproved.1.trans_le h.low_le, himproved.2.trans_le h.point_le⟩
    rw [if_pos himproved, if_pos himproved']
  rw [if_neg himproved]
  by_cases hregressed : high < 1 ∧ point < 1 - band
  · rw [if_pos hregressed]
    exact Nat.zero_le _
  · -- what is not regressed is not regressed afterwards
    have hregressed' : ¬(high' < 1 ∧ point' < 1 - band) := fun h' =>
      hregressed ⟨h.high_le.trans_lt h'.1, h.point_le.trans_lt h'.2⟩
    rw [if_neg hregressed, if_neg hregressed']
    split_ifs <;> simp [Decision.rank]

end Raised

/-! ### The bootstrap interval -/

theorem lowIndex_eq (count : ℕ) : lowIndex count = (count - 1) / 40 := by
  have hquotient : alpha / 2 * (count - 1 : ℕ) = ((count - 1 : ℕ) : ℚ) / (40 : ℕ) := by
    rw [alpha]
    push_cast
    ring
  rw [lowIndex, hquotient, Nat.floor_div_eq_div]

theorem highIndex_eq (count : ℕ) : highIndex count = (count - 1) * 39 / 40 := by
  have hquotient : (1 - alpha / 2) * (count - 1 : ℕ) = ((count - 1) * 39 : ℕ) / (40 : ℕ) := by
    rw [alpha]
    push_cast
    ring
  rw [highIndex, hquotient, Nat.floor_div_eq_div]

theorem lowIndex_le_highIndex (count : ℕ) : lowIndex count ≤ highIndex count := by
  rw [lowIndex_eq, highIndex_eq]
  omega

theorem highIndex_lt {count : ℕ} (h : 0 < count) : highIndex count < count := by
  rw [highIndex_eq]
  omega

theorem lowIndex_lt {count : ℕ} (h : 0 < count) : lowIndex count < count :=
  (lowIndex_le_highIndex count).trans_lt (highIndex_lt h)

section LogExp

variable {K : Type*} [Field K] [LinearOrder K] (maths : LogExp K) {x y : K}

theorem LogExp.exp_le (h : x ≤ y) : maths.exp x ≤ maths.exp y := by
  rcases h.eq_or_lt with rfl | h
  · exact le_rfl
  · exact (maths.exp_lt x y h).le

theorem LogExp.exp_inj : maths.exp x = maths.exp y ↔ x = y :=
  ⟨fun h => by rw [← maths.log_exp x, h, maths.log_exp], fun h => h ▸ rfl⟩

theorem LogExp.log_le (hx : 0 < x) (h : x ≤ y) : maths.log x ≤ maths.log y := by
  by_contra hlt
  have := maths.exp_lt _ _ (not_le.1 hlt)
  rw [maths.exp_log x hx, maths.exp_log y (hx.trans_le h)] at this
  exact absurd h (not_le.2 this)

end LogExp

section Means

variable {K : Type*} [Field K] {rng : RandRange} {seed resamples : ℕ} {logs logs' : List K}

theorem length_resampleMeans :
    (resampleMeans rng seed resamples logs).length = resamples := by
  rw [resampleMeans, List.length_map, List.length_range]

variable [LinearOrder K]

/-- The sorted means of the resamples. -/
def sortedMeans (rng : RandRange) (seed resamples : ℕ) (logs : List K) : List K :=
  (resampleMeans rng seed resamples logs).insertionSort (· ≤ ·)

theorem length_sortedMeans (rng : RandRange) (seed resamples : ℕ) (logs : List K) :
    (sortedMeans rng seed resamples logs).length = resamples := by
  rw [sortedMeans, List.length_insertionSort, length_resampleMeans]

theorem pairwise_sortedMeans : (sortedMeans rng seed resamples logs).Pairwise (· ≤ ·) :=
  List.pairwise_insertionSort _ _

/-- The order statistic at an index. -/
def meanAt (rng : RandRange) (seed resamples : ℕ) (logs : List K) (i : ℕ) : K :=
  (sortedMeans rng seed resamples logs).getD i 0

theorem getElem?_sortedMeans (rng : RandRange) (seed : ℕ) (logs : List K) {i : ℕ}
    (h : i < resamples) :
    (sortedMeans rng seed resamples logs)[i]? = some (meanAt rng seed resamples logs i) := by
  have hlength : i < (sortedMeans rng seed resamples logs).length := by rwa [length_sortedMeans]
  rw [meanAt, List.getD_eq_getElem _ _ hlength, List.getElem?_eq_getElem hlength]

/-- **The bootstrap interval** is that of the order statistics at the two indices. -/
theorem bootstrapCi_eq (maths : LogExp K) (hlogs : logs ≠ []) (hpos : 0 < resamples) :
    bootstrapCi maths rng logs resamples seed =
      .ok (some (maths.exp (meanAt rng seed resamples logs (lowIndex resamples)),
        maths.exp (meanAt rng seed resamples logs (highIndex resamples)))) := by
  have hlow := getElem?_sortedMeans rng seed logs (lowIndex_lt hpos)
  have hhigh := getElem?_sortedMeans rng seed logs (highIndex_lt hpos)
  rw [sortedMeans] at hlow hhigh
  rw [bootstrapCi, if_neg hlogs]
  simp only [List.length_insertionSort, length_resampleMeans, hlow, hhigh]

/-- Without resamples there is none. -/
theorem bootstrapCi_zero (maths : LogExp K) (hlogs : logs ≠ []) :
    bootstrapCi maths rng logs 0 seed = .error ⟨.indexError, "list index out of range"⟩ := by
  rw [bootstrapCi, if_neg hlogs]
  rfl

theorem meanAt_le_meanAt {i j : ℕ} (hij : i ≤ j) (hj : j < resamples) :
    meanAt rng seed resamples logs i ≤ meanAt rng seed resamples logs j := by
  have hlength := length_sortedMeans rng seed resamples logs
  rcases hij.eq_or_lt with rfl | hij
  · exact le_rfl
  rw [meanAt, meanAt, List.getD_eq_getElem _ _ (by omega), List.getD_eq_getElem _ _ (by omega)]
  exact List.pairwise_iff_getElem.1 pairwise_sortedMeans i j _ _ hij

variable [IsStrictOrderedRing K]

theorem fmean_mono {data data' : List K} (h : List.Forall₂ (· ≤ ·) data data') :
    fmean data ≤ fmean data' := by
  rw [fmean, fmean, h.length_eq]
  gcongr
  exact List.Forall₂.sum_le_sum h

/-- The means of the resamples grow with the logarithms. -/
theorem resampleMeans_mono (h : List.Forall₂ (· ≤ ·) logs logs') :
    List.Forall₂ (· ≤ ·) (resampleMeans rng seed resamples logs)
      (resampleMeans rng seed resamples logs') := by
  rw [resampleMeans, resampleMeans, List.forall₂_map_left_iff, List.forall₂_map_right_iff,
    List.forall₂_same]
  intro resample _
  refine fmean_mono ?_
  rw [← h.length_eq, List.forall₂_map_left_iff, List.forall₂_map_right_iff, List.forall₂_same]
  intro i _
  exact forall₂_getD h _

/-- The order statistics grow with the logarithms. -/
theorem meanAt_mono (h : List.Forall₂ (· ≤ ·) logs logs') (i : ℕ) :
    meanAt rng seed resamples logs i ≤ meanAt rng seed resamples logs' i :=
  forall₂_getD (forall₂_insertionSort (resampleMeans_mono h)) i

end Means

/-! ### Three blocks -/

/-- A logarithm with rational values. -/
def rationalLog : LogExp ℚ where
  log x := if 1 ≤ x then x - 1 else 1 - 1 / x
  exp y := if 0 ≤ y then 1 + y else 1 / (1 - y)
  exp_pos y := by
    split_ifs with h
    · linarith
    · exact one_div_pos.2 (by linarith)
  exp_lt x y h := by
    split_ifs with hx hy hy
    · linarith
    · linarith
    · have : 1 / (1 - x) < 1 := by rw [div_lt_one (by linarith)]; linarith
      linarith
    · exact one_div_lt_one_div_of_lt (by linarith) (by linarith)
  log_exp y := by
    split_ifs with h h1 h1
    · ring
    · linarith
    · rw [le_div_iff₀ (by linarith)] at h1
      linarith
    · rw [one_div_one_div]
      ring
  exp_log x hx := by
    split_ifs with h h1 h1
    · ring
    · linarith
    · rw [sub_nonneg, div_le_one hx] at h1
      linarith
    · rw [sub_sub_cancel, one_div_one_div]

/-- One block after the other. -/
def inTurn : RandRange where
  draw _ n call := min (call / n) (n - 1)
  lt _ n _ h := by omega

/-- The throughput of a pair under the governor. -/
def roundTrips : Spec where
  scenario := "steal"
  group := "pair"
  metric := "round_trips_per_s"
  contrast := some "governor"
  direction := some .higher
  expected := some .improve
  feature := some "steal governor"
  rationale := none

/-- The median of an arm in a block. -/
def roundTripsIn (block arm : String) (value : ℚ) : Key × ℚ :=
  (⟨block, arm, "steal", "pair", "round_trips_per_s"⟩, value)

/-- Three blocks, of which two have gained. -/
def threeBlocks (gain : ℚ) : Aggregated ℚ :=
  [roundTripsIn "1" "custom-nogov" 1, roundTripsIn "1" "custom-gov" 1,
    roundTripsIn "2" "custom-nogov" 1, roundTripsIn "2" "custom-gov" gain,
    roundTripsIn "3" "custom-nogov" 1, roundTripsIn "3" "custom-gov" gain]

theorem arms_roundTrips : roundTrips.arms = .ok ("custom-nogov", "custom-gov") := by decide

/-! ### The law of raised ratios -/

section Law

variable {K : Type*} [Field K] [LinearOrder K] {maths : LogExp K} {rng : RandRange} {spec : Spec}
  {blocks : List String} {resamples seed : ℕ} {aggregated aggregated' : Aggregated K}
  {arms : String × String} {direction : Direction} {pairs pairs' : List (Pair K)}

/-- The estimates of positive pairs. -/
def orient (direction : Direction) (ratio low high : K) : Estimate K :=
  if direction = .lower then ⟨ratio, low, high, some (1 / ratio), some (1 / high), some (1 / low)⟩
  else ⟨ratio, low, high, ratio, low, high⟩

/-- The values of the pairs are positive. -/
def Positive (pairs : List (Pair K)) : Prop :=
  ∀ pair ∈ pairs, 0 < pair.control ∧ 0 < pair.treatment

theorem rawLogs_ne_nil (h : pairs ≠ []) : rawLogs maths pairs ≠ [] := by
  rw [rawLogs, ne_eq, List.map_eq_nil_iff]
  exact h

theorem estimate_eq (hpositive : Positive pairs) (hpairs : pairs ≠ []) (hres : 0 < resamples) :
    estimate maths rng direction pairs resamples seed = .ok (orient direction
      (maths.exp (fmean (rawLogs maths pairs)))
      (maths.exp (meanAt rng seed resamples (rawLogs maths pairs) (lowIndex resamples)))
      (maths.exp (meanAt rng seed resamples (rawLogs maths pairs) (highIndex resamples)))) := by
  rw [Positive] at hpositive
  rw [estimate, if_pos hpositive]
  dsimp only
  rw [bootstrapCi_eq maths (rawLogs_ne_nil hpairs) hres, orient]
  refine congrArg Except.ok ?_
  split_ifs <;> rfl

theorem estimate_zero (hpositive : Positive pairs) (hpairs : pairs ≠ []) :
    estimate maths rng direction pairs 0 seed =
      .error ⟨.indexError, "list index out of range"⟩ := by
  rw [Positive] at hpositive
  rw [estimate, if_pos hpositive]
  dsimp only
  rw [bootstrapCi_zero maths (rawLogs_ne_nil hpairs)]
  rfl

/-- Two pairs of a block, the second with an oriented ratio as good or better. -/
structure RaisedPair (direction : Direction) (p p' : Pair K) : Prop where
  pos : 0 < p.control ∧ 0 < p.treatment
  pos' : 0 < p'.control ∧ 0 < p'.treatment
  le : orientedRatio direction p.control p.treatment ≤
    orientedRatio direction p'.control p'.treatment

theorem forall₂_pairsOf (h : Raised spec blocks aggregated aggregated')
    (harms : spec.arms = .ok arms) : List.Forall₂ (RaisedPair spec.directionOf)
      (pairsOf spec aggregated blocks arms) (pairsOf spec aggregated' blocks arms) := by
  have hblocks := h arms harms
  unfold pairsOf
  induction blocks with
  | nil => exact .nil
  | cons block blocks ih =>
    have hrest := ih (fun arms harms block hblock => h arms harms block (.tail _ hblock))
      fun block hblock => hblocks block (.tail _ hblock)
    have hat := hblocks block List.mem_cons_self
    rw [List.filterMap_cons, List.filterMap_cons]
    unfold RaisedAt valueOf at hat
    unfold pairOf
    dsimp only
    split at hat
    · next c t c' t' hc ht hc' ht' =>
      obtain ⟨hpos, hpos', hle⟩ := hat
      rw [hc, ht, hc', ht']
      simp only [not_le.2 hpos.1, not_le.2 hpos.2, not_le.2 hpos'.1, not_le.2 hpos'.2, or_self,
        and_false, if_false]
      exact .cons ⟨hpos, hpos', hle⟩ hrest
    · have hnone : ∀ {x y : Option K}, x = none ∨ y = none →
          (match x, y with
          | some c, some t =>
            if spec.expectedOf ≠ .descriptive ∧ (c ≤ 0 ∨ t ≤ 0) then none
            else some (Pair.mk block c t)
          | _, _ => none) = none := by
        rintro x y (rfl | rfl)
        · rfl
        · cases x <;> rfl
      rw [hnone hat.1, hnone hat.2]
      exact hrest

theorem positive_of_raised (h : List.Forall₂ (RaisedPair direction) pairs pairs') :
    Positive pairs ∧ Positive pairs' := by
  constructor
  · intro p hp
    obtain ⟨p', -, hraised⟩ := forall₂_mem_right h.flip hp
    exact hraised.pos
  · intro p' hp'
    obtain ⟨p, -, hraised⟩ := forall₂_mem_right h hp'
    exact hraised.pos'

variable [IsStrictOrderedRing K]

/-- The logarithms rise with the oriented ratios, and fall where lower is better. -/
theorem rawLogs_raised (maths : LogExp K) (h : List.Forall₂ (RaisedPair direction) pairs pairs') :
    if direction = .lower then
      List.Forall₂ (· ≤ ·) (rawLogs maths pairs') (rawLogs maths pairs)
    else List.Forall₂ (· ≤ ·) (rawLogs maths pairs) (rawLogs maths pairs') := by
  split_ifs with hdirection
  · rw [rawLogs, rawLogs, List.forall₂_map_left_iff, List.forall₂_map_right_iff]
    refine h.flip.imp fun p' p hraised => maths.log_le (div_pos hraised.pos'.2 hraised.pos'.1) ?_
    have hle := hraised.le
    rw [orientedRatio, orientedRatio, if_pos hdirection, if_pos hdirection] at hle
    rw [← inv_div, ← inv_div p.control]
    exact inv_anti₀ (div_pos hraised.pos.1 hraised.pos.2) hle
  · rw [rawLogs, rawLogs, List.forall₂_map_left_iff, List.forall₂_map_right_iff]
    refine h.imp fun p p' hraised => maths.log_le (div_pos hraised.pos.2 hraised.pos.1) ?_
    have hle := hraised.le
    rwa [orientedRatio, orientedRatio, if_neg hdirection, if_neg hdirection] at hle

/-- **Raising the oriented ratio of a block never moves the decision down.** -/
theorem analyseMetric_mono (maths : LogExp K) (rng : RandRange) (spec : Spec)
    (blocks : List String) (resamples seed : ℕ) (aggregated aggregated' : Aggregated K)
    (h : Raised spec blocks aggregated aggregated') :
    NotLowered (analyseMetric maths rng spec aggregated blocks resamples seed)
      (analyseMetric maths rng spec aggregated' blocks resamples seed) := by
  unfold analyseMetric
  cases harms : spec.arms with
  | error e => rfl
  | ok arms =>
    have hpairs := forall₂_pairsOf h harms
    obtain ⟨hpos, hpos'⟩ := positive_of_raised hpairs
    have hlogs := rawLogs_raised maths hpairs
    have hlength := hpairs.length_eq
    dsimp only [Except.bind]
    unfold judge
    -- raised blocks leave the same pairs, so both runs take the same way out
    by_cases hnil : pairsOf spec aggregated blocks arms = []
    · rw [hnil, List.length_nil] at hlength
      rw [if_pos hnil, if_pos (List.length_eq_zero_iff.1 hlength.symm)]
      exact le_rfl
    have hnil' : pairsOf spec aggregated' blocks arms ≠ [] := fun heq => hnil (by
      rw [heq, List.length_nil] at hlength
      exact List.length_eq_zero_iff.1 hlength)
    rw [if_neg hnil, if_neg hnil']
    rcases Nat.eq_zero_or_pos resamples with rfl | hres
    · rw [estimate_zero hpos hnil, estimate_zero hpos' hnil']
      rfl
    -- with the same seed both resample the same positions
    rw [estimate_eq hpos hnil hres, estimate_eq hpos' hnil' hres]
    show (decisionOf _ _ _).rank ≤ (decisionOf _ _ _).rank
    rw [decisionOf, decisionOf, ← hlength, orient, orient]
    have hinterval : ∀ logs : List K, meanAt rng seed resamples logs (lowIndex resamples) ≤
        meanAt rng seed resamples logs (highIndex resamples) := fun logs =>
      meanAt_le_meanAt (lowIndex_le_highIndex resamples) (highIndex_lt hres)
    split_ifs at hlogs ⊢
    · -- the bounds change places when they are inverted
      have hinv : ∀ {x y : K}, x ≤ y → 1 / maths.exp y ≤ 1 / maths.exp x := fun hxy =>
        one_div_le_one_div_of_le (maths.exp_pos _) (maths.exp_le hxy)
      exact Better.rank_le
        { point_le := hinv (fmean_mono hlogs)
          low_le := hinv (meanAt_mono hlogs _)
          high_le := hinv (meanAt_mono hlogs _)
          low_le_high := hinv (hinterval _)
          low_le_high' := hinv (hinterval _) }
    · exact Better.rank_le
        { point_le := maths.exp_le (fmean_mono hlogs)
          low_le := maths.exp_le (meanAt_mono hlogs _)
          high_le := maths.exp_le (meanAt_mono hlogs _)
          low_le_high := maths.exp_le (hinterval _)
          low_le_high' := maths.exp_le (hinterval _) }

end Law

theorem raised_threeBlocks {gain gain' : ℚ} (hgain : 0 < gain) (hle : gain ≤ gain') :
    Raised roundTrips ["1", "2", "3"] (threeBlocks gain) (threeBlocks gain') := by
  have hraised : ∀ {x y : ℚ}, 0 < x → x ≤ y →
      RaisedAt .higher (some 1) (some x) (some 1) (some y) := fun hx hxy =>
    ⟨⟨one_pos, hx⟩, ⟨one_pos, hx.trans_le hxy⟩, by simpa [orientedRatio] using hxy⟩
  intro arms harms block hblock
  rw [arms_roundTrips] at harms
  cases harms
  rcases List.mem_cons.1 hblock with rfl | hblock
  · exact hraised one_pos le_rfl
  rcases List.mem_cons.1 hblock with rfl | hblock
  · exact hraised hgain hle
  rcases List.mem_cons.1 hblock with rfl | hblock
  · exact hraised hgain hle
  · cases hblock

/-- Two blocks that gained nothing are raised to a doubling. -/
theorem analyseMetric_mono_threeBlocks :
    NotLowered (analyseMetric rationalLog inTurn roundTrips (threeBlocks 1) ["1", "2", "3"] 2 0)
      (analyseMetric rationalLog inTurn roundTrips (threeBlocks 2) ["1", "2", "3"] 2 0) :=
  analyseMetric_mono rationalLog inTurn roundTrips ["1", "2", "3"] 2 0 _ _
    (raised_threeBlocks one_pos one_le_two)

/-! ### The law of orientation -/

section Orientation

variable {K : Type*} [Field K] [LinearOrder K]

/-- The interval that a result was decided on. -/
def Result.orientedInterval (result : Result K) : Option K × Option K :=
  if result.direction = .lower then (result.ciHigh.map (1 / ·), result.ciLow.map (1 / ·))
  else (result.ciLow, result.ciHigh)

/-- A metric with another better direction. -/
def Spec.toward (spec : Spec) (direction : Direction) : Spec :=
  { spec with direction := some direction }

/-- The reciprocal values. -/
def reciprocal (aggregated : Aggregated K) : Aggregated K :=
  aggregated.map fun entry => (entry.1, 1 / entry.2)

/-- Both runs raise the same exception, or have the same oriented ratio and interval and the same
decision. -/
def SameOriented : Except Exc (Result K) → Except Exc (Result K) → Prop
  | .ok result, .ok result' => result.orientedRatio = result'.orientedRatio ∧
      result.orientedInterval = result'.orientedInterval ∧ result.decision = result'.decision
  | .error e, .error e' => e = e'
  | _, _ => False

/-- The values of the paired blocks are positive. -/
def PositiveValues (spec : Spec) (blocks : List String) (aggregated : Aggregated K) : Prop :=
  ∀ arms, spec.arms = .ok arms → ∀ block ∈ blocks, ∀ c t,
    valueOf spec aggregated block arms.1 = some c → valueOf spec aggregated block arms.2 = some t →
      0 < c ∧ 0 < t

/-- The logarithm of a reciprocal. -/
def LogExp.Symmetric (maths : LogExp K) : Prop := ∀ x, 0 < x → maths.log (1 / x) = -maths.log x

/-- So many data are equal that two neighbouring order statistics are. -/
def Tied (data : List K) (i : ℕ) : Prop :=
  ∃ v, (data.countP fun x => x < v) ≤ i ∧ i + 1 < data.countP fun x => x ≤ v

/-- A pair of reciprocals. -/
def Pair.reciprocal (pair : Pair K) : Pair K := ⟨pair.block, 1 / pair.control, 1 / pair.treatment⟩

variable {maths : LogExp K} {rng : RandRange} {spec : Spec} {blocks : List String}
  {resamples seed : ℕ} {aggregated : Aggregated K} {arms : String × String}
  {pairs : List (Pair K)} {logs : List K}

theorem LogExp.Symmetric.exp_neg [IsStrictOrderedRing K] (h : maths.Symmetric) (x : K) :
    maths.exp (-x) = 1 / maths.exp x := by
  have hpos := maths.exp_pos x
  calc maths.exp (-x) = maths.exp (-maths.log (maths.exp x)) := by rw [maths.log_exp]
    _ = maths.exp (maths.log (1 / maths.exp x)) := by rw [h _ hpos]
    _ = 1 / maths.exp x := maths.exp_log _ (one_div_pos.2 hpos)

omit [LinearOrder K] in
theorem lookup_reciprocal (aggregated : Aggregated K) (key : Key) :
    (reciprocal aggregated).lookup key = (aggregated.lookup key).map (1 / ·) := by
  induction aggregated with
  | nil => rfl
  | cons entry aggregated ih =>
    obtain ⟨k, x⟩ := entry
    show List.lookup key ((k, 1 / x) :: reciprocal aggregated) = _
    rw [List.lookup_cons, List.lookup_cons, ih]
    cases key == k <;> rfl

theorem positive_pairsOf (h : PositiveValues spec blocks aggregated) (harms : spec.arms = .ok arms) :
    Positive (pairsOf spec aggregated blocks arms) := by
  intro pair hpair
  obtain ⟨block, hblock, hpair⟩ := List.mem_filterMap.1 hpair
  unfold pairOf at hpair
  dsimp only at hpair
  split at hpair
  · next c t hc ht =>
    split_ifs at hpair
    cases hpair
    exact h arms harms block hblock c t hc ht
  · cases hpair

theorem classify_higher {expected : Expected} {point low high : Option K} {n : ℕ} :
    classify .higher expected point low high n = classify .lower expected point low high n := by
  simp only [classify, reduceCtorEq, if_false]

/-- **When the interval is mirrored**: always where the resample count is one more than a multiple
of forty, and otherwise where the order statistics next to its ends are equal to them. -/
theorem mirrored_iff (h : 0 < resamples) :
    meanAt rng seed resamples logs (highIndex resamples) =
          meanAt rng seed resamples logs (resamples - 1 - lowIndex resamples) ∧
        meanAt rng seed resamples logs (lowIndex resamples) =
          meanAt rng seed resamples logs (resamples - 1 - highIndex resamples) ↔
      40 ∣ resamples - 1 ∨ Tied (resampleMeans rng seed resamples logs) (lowIndex resamples) ∧
        Tied (resampleMeans rng seed resamples logs) (highIndex resamples) := by
  have hlow := lowIndex_eq resamples
  have hhigh := highIndex_eq resamples
  by_cases hdvd : 40 ∣ resamples - 1
  · obtain ⟨k, hk⟩ := hdvd
    have hmirror : highIndex resamples = resamples - 1 - lowIndex resamples ∧
        lowIndex resamples = resamples - 1 - highIndex resamples := by omega
    rw [← hmirror.1, ← hmirror.2]
    simp [hk]
  · have hmirror : resamples - 1 - lowIndex resamples = highIndex resamples + 1 ∧
        resamples - 1 - highIndex resamples = lowIndex resamples + 1 := by omega
    have htied : ∀ i, i + 1 < resamples → (meanAt rng seed resamples logs i =
        meanAt rng seed resamples logs (i + 1) ↔
          Tied (resampleMeans rng seed resamples logs) i) := fun i hi =>
      getD_insertionSort_eq_iff (by rwa [length_resampleMeans])
    rw [hmirror.1, hmirror.2, htied _ (by omega), htied _ (by omega), or_iff_right hdvd, and_comm]

section Reciprocal

variable [IsStrictOrderedRing K]

theorem pairsOf_reciprocal : pairsOf spec (reciprocal aggregated) blocks arms =
    (pairsOf spec aggregated blocks arms).map Pair.reciprocal := by
  rw [pairsOf, pairsOf, List.map_filterMap]
  refine List.filterMap_congr fun block _ => ?_
  unfold pairOf
  dsimp only
  rw [lookup_reciprocal, lookup_reciprocal]
  generalize aggregated.lookup ⟨block, arms.1, spec.scenario, spec.group, spec.metric⟩ = control
  generalize aggregated.lookup ⟨block, arms.2, spec.scenario, spec.group, spec.metric⟩ = treatment
  rcases control with _ | c
  · rfl
  rcases treatment with _ | t
  · rfl
  simp only [Option.map_some, one_div_nonpos]
  split_ifs <;> rfl

theorem rawLogs_reciprocal (h : maths.Symmetric) (hpositive : Positive pairs) :
    rawLogs maths (pairs.map Pair.reciprocal) = (rawLogs maths pairs).map Neg.neg := by
  rw [rawLogs, rawLogs, List.map_map, List.map_map]
  refine List.map_congr_left fun pair hpair => ?_
  obtain ⟨hcontrol, htreatment⟩ := hpositive pair hpair
  have hquotient : 1 / pair.treatment / (1 / pair.control) =
      1 / (pair.treatment / pair.control) := by
    field_simp
  rw [Function.comp_apply, Function.comp_apply, Pair.reciprocal, hquotient,
    h _ (div_pos htreatment hcontrol)]

theorem positive_reciprocal (h : Positive pairs) : Positive (pairs.map Pair.reciprocal) := by
  intro _ hmem
  obtain ⟨pair, hpair, rfl⟩ := List.mem_map.1 hmem
  exact ⟨one_div_pos.2 (h pair hpair).1, one_div_pos.2 (h pair hpair).2⟩

omit [LinearOrder K] [IsStrictOrderedRing K] in
theorem resampleMeans_neg : resampleMeans rng seed resamples (logs.map Neg.neg) =
    (resampleMeans rng seed resamples logs).map Neg.neg := by
  rw [resampleMeans, resampleMeans, List.map_map, List.length_map]
  refine List.map_congr_left fun resample _ => ?_
  rw [Function.comp_apply, ← fmean_map_neg, List.map_map]
  refine congrArg fmean (List.map_congr_left fun i _ => ?_)
  have hzero : (0 : K) = -0 := neg_zero.symm
  rw [Function.comp_apply, hzero, List.getD_map, ← hzero]

/-- The order statistics of the mirrored logarithms, from the other end. -/
theorem meanAt_neg {i : ℕ} (h : i < resamples) :
    meanAt rng seed resamples (logs.map Neg.neg) i =
      -meanAt rng seed resamples logs (resamples - 1 - i) := by
  have hlength := length_sortedMeans rng seed resamples logs
  rw [meanAt, meanAt, sortedMeans, resampleMeans_neg, insertionSort_map_neg, ← sortedMeans,
    List.getD_eq_getElem _ _ (by simpa [hlength] using h),
    List.getD_eq_getElem _ _ (by omega), List.getElem_reverse, List.getElem_map]
  simp only [List.length_map, hlength]

/-- The two runs with their pairs. -/
theorem sameOriented_judge (hlog : maths.Symmetric) (hpositive : Positive pairs) :
    SameOriented (judge maths rng (spec.toward .lower) arms pairs resamples seed)
        (judge maths rng (spec.toward .higher) arms (pairs.map Pair.reciprocal) resamples seed) ↔
      pairs = [] ∨ 40 ∣ resamples - 1 ∨
        Tied (resampleMeans rng seed resamples (rawLogs maths pairs)) (lowIndex resamples) ∧
          Tied (resampleMeans rng seed resamples (rawLogs maths pairs)) (highIndex resamples) := by
  by_cases hpairs : pairs = []
  · subst hpairs
    exact iff_of_true ⟨rfl, rfl, rfl⟩ (.inl rfl)
  have hpairs' : pairs.map Pair.reciprocal ≠ [] := fun h => hpairs (List.map_eq_nil_iff.1 h)
  have hpositive' := positive_reciprocal hpositive
  rw [or_iff_right hpairs, judge, judge, if_neg hpairs, if_neg hpairs']
  rcases Nat.eq_zero_or_pos resamples with rfl | hres
  · rw [estimate_zero hpositive hpairs, estimate_zero hpositive' hpairs']
    exact iff_of_true rfl (.inl (dvd_zero _))
  rw [← mirrored_iff hres, estimate_eq hpositive hpairs hres, estimate_eq hpositive' hpairs' hres,
    rawLogs_reciprocal hlog hpositive, fmean_map_neg, meanAt_neg (lowIndex_lt hres),
    meanAt_neg (highIndex_lt hres), hlog.exp_neg, hlog.exp_neg, hlog.exp_neg]
  generalize fmean (rawLogs maths pairs) = mean
  -- exchanging the arms negates the logs, which mirrors their order
  have hinv : ∀ x y : K, 1 / maths.exp x = 1 / maths.exp y ↔ x = y := fun x y => by
    rw [one_div, one_div, inv_inj, maths.exp_inj]
  constructor
  · rintro ⟨-, hinterval, -⟩
    obtain ⟨hlow, hhigh⟩ := Prod.mk.inj hinterval
    exact ⟨(hinv _ _).1 (Option.some.inj hlow), (hinv _ _).1 (Option.some.inj hhigh)⟩
  · rintro ⟨hlow, hhigh⟩
    rw [← hlow, ← hhigh]
    refine ⟨rfl, rfl, ?_⟩
    show classify .lower _ _ _ _ _ = classify .higher _ _ _ _ _
    rw [classify_higher, List.length_map]
    rfl

/-- **When a lower-is-better metric is decided as its reciprocal is**: where the two ends of the
interval are as far from the two ends of the sorted means, or the means next to them are equal. -/
theorem sameOriented_iff (maths : LogExp K) (hlog : maths.Symmetric) (rng : RandRange) (spec : Spec)
    (blocks : List String) (resamples seed : ℕ) (aggregated : Aggregated K)
    (hpositive : PositiveValues spec blocks aggregated) :
    SameOriented (analyseMetric maths rng (spec.toward .lower) aggregated blocks resamples seed)
        (analyseMetric maths rng (spec.toward .higher) (reciprocal aggregated) blocks resamples
          seed) ↔
      ∀ arms, spec.arms = .ok arms →
        let pairs := pairsOf spec aggregated blocks arms
        let means := resampleMeans rng seed resamples (rawLogs maths pairs)
        pairs = [] ∨ 40 ∣ resamples - 1 ∨
          Tied means (lowIndex resamples) ∧ Tied means (highIndex resamples) := by
  -- pairing does not look at the direction
  have hpairs : ∀ direction (aggregated : Aggregated K),
      analyseMetric maths rng (spec.toward direction) aggregated blocks resamples seed =
        spec.arms.bind fun arms => judge maths rng (spec.toward direction) arms
          (pairsOf spec aggregated blocks arms) resamples seed := fun _ _ => rfl
  rw [hpairs, hpairs]
  cases harms : spec.arms with
  | error e => exact iff_of_true rfl fun arms h => by cases h
  | ok arms =>
    have hpos := positive_pairsOf hpositive harms
    dsimp only [Except.bind]
    rw [pairsOf_reciprocal, sameOriented_judge hlog hpos]
    constructor
    · rintro h arms ⟨⟩
      exact h
    · intro h
      exact h arms rfl

end Reciprocal

end Orientation

theorem symmetric_rationalLog : rationalLog.Symmetric := by
  intro x hx
  show (if 1 ≤ 1 / x then 1 / x - 1 else 1 - 1 / (1 / x)) = -(if 1 ≤ x then x - 1 else 1 - 1 / x)
  simp only [le_div_iff₀ hx, one_mul, one_div_one_div]
  split_ifs with h h' h'
  · rw [le_antisymm h h']
    norm_num
  · ring
  · ring
  · linarith

theorem positiveValues_threeBlocks {gain : ℚ} (hgain : 0 < gain) :
    PositiveValues roundTrips ["1", "2", "3"] (threeBlocks gain) := by
  intro arms harms block hblock c t hc ht
  have hraised := raised_threeBlocks hgain le_rfl arms harms block hblock
  rw [hc, ht] at hraised
  exact hraised.1

/-- The law for three blocks and two resamples. -/
theorem sameOriented_iff_threeBlocks :
    SameOriented
        (analyseMetric rationalLog inTurn (roundTrips.toward .lower) (threeBlocks 2)
          ["1", "2", "3"] 2 0)
        (analyseMetric rationalLog inTurn (roundTrips.toward .higher) (reciprocal (threeBlocks 2))
          ["1", "2", "3"] 2 0) ↔
      ∀ arms, roundTrips.arms = .ok arms →
        let pairs := pairsOf roundTrips (threeBlocks 2) ["1", "2", "3"] arms
        let means := resampleMeans inTurn 0 2 (rawLogs rationalLog pairs)
        pairs = [] ∨ 40 ∣ 2 - 1 ∨ Tied means (lowIndex 2) ∧ Tied means (highIndex 2) :=
  sameOriented_iff rationalLog symmetric_rationalLog inTurn roundTrips ["1", "2", "3"] 2 0 _
    (positiveValues_threeBlocks two_pos)

/-- A metric that is equivalent where lower is better, and regressed as its reciprocal. -/
theorem reciprocal_regressed : PositiveValues roundTrips ["1", "2", "3"] (threeBlocks 2) ∧
    ¬ SameOriented
        (analyseMetric rationalLog inTurn (roundTrips.toward .lower) (threeBlocks 2)
          ["1", "2", "3"] 2 0)
        (analyseMetric rationalLog inTurn (roundTrips.toward .higher) (reciprocal (threeBlocks 2))
          ["1", "2", "3"] 2 0) := by
  refine ⟨positiveValues_threeBlocks two_pos, fun h => ?_⟩
  have hdecisions : (analyseMetric rationalLog inTurn (roundTrips.toward .lower) (threeBlocks 2)
        ["1", "2", "3"] 2 0).map Result.decision = .ok .equivalent ∧
      (analyseMetric rationalLog inTurn (roundTrips.toward .higher) (reciprocal (threeBlocks 2))
        ["1", "2", "3"] 2 0).map Result.decision = .ok .regressed := by decide +kernel
  obtain ⟨result, hresult, hdecision⟩ := map_eq_ok.1 hdecisions.1
  obtain ⟨result', hresult', hdecision'⟩ := map_eq_ok.1 hdecisions.2
  rw [hresult, hresult'] at h
  have hsame := h.2.2
  rw [hdecision, hdecision'] at hsame
  cases hsame

end Analyze

end SchedCoreDelta

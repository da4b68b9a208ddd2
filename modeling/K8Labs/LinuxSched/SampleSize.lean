import K8Labs.LinuxSched.FactorialSampleSize
import Mathlib.Order.Bounds.Defs

/-!
# The sample-size plan of the scheduler-only study

`research/linux-sched/analysis/sample_size.py`: `plan` sizes every contrast of a pilot twice, from
the standard deviation of its log ratios and from the upper bound of that, and freezes per scenario
a count of confirmatory blocks from each.  The bound and the search for the count are the ones of
the quota campaign, word for word.

* `isLeast_confirmatoryBlocks` : the count that is frozen is the least multiple of three that is at
  least five and at least what every contrast requires.
* `plan_sound_iff` : the count from the upper bound has no floor of five, so it is at least the other
  one **if and only if every group with a verdict has a contrast whose upper bound asks for more
  than the three blocks that the search starts with** (`Spread`).
-/

namespace LinuxSched

namespace SampleSize

open Py SchedAnalysis

open FactorialSampleSize (normalPpf chi2Lower sdUpperBound requiredLoop requiredNPaired
  roundUpToMultiple roundSix)

/-! ### Constants -/

/-- `BALANCE`. -/
def balance : ℕ := 3

/-- `MIN_PILOT_PAIRED_BLOCKS`. -/
def minPilotPairedBlocks : ℕ := 3

/-- `CONFIRMATORY_FLOOR_BLOCKS`. -/
def confirmatoryFloorBlocks : ℕ := 5

/-- `DEFAULT_ALPHA`. -/
def defaultAlpha : ℚ := 1 / 20

/-- `DEFAULT_POWER`. -/
def defaultPower : ℚ := 4 / 5

/-- The level of one contrast. -/
def alphaPerContrast : ℚ := defaultAlpha / primaryContrasts

/-! ### The plan -/

/-- An entry of `contrasts`. -/
structure PlannedContrast where
  scheduler : String
  pairedBlocks : ℕ
  effect : ℚ
  sdLogRatio : ℚ
  requiredN : ℕ
  sdUpper95LogRatio : ℚ
  requiredNUpper95 : ℕ

/-- An entry of `scenarios`. -/
structure Scenario where
  scenario : String
  metric : String
  descriptive : Bool
  contrasts : List PlannedContrast
  requiredNRaw : ℕ
  requiredNFloored : ℕ
  confirmatoryBlocks : Option ℕ
  confirmatoryBlocksUpper95 : Option ℕ
  balancedMultiple : ℕ

/-- The record that `plan` returns. -/
structure Plan where
  schemaVersion : ℕ
  controlScheduler : String
  practicalEffectByMetric : List (String × ℚ)
  power : ℚ
  alpha : ℚ
  primaryContrasts : ℕ
  alphaPerContrast : ℚ
  minBlocks : ℕ
  balanceMultiple : ℕ
  scenarios : List Scenario

variable (maths : Maths ℚ)

/-- `logs`: the oriented log ratios of the shared blocks. -/
def pairedLogs (metric : String) (direction : Option String) (control arm : List (String × ℚ)) :
    Except Exc (List ℚ) :=
  Py.traverse (fun block => orientedLogRatio maths ((control.lookup block).getD 0)
    ((arm.lookup block).getD 0) (isLowerBetter lowerIsBetter metric direction))
    (sharedBlocks control arm)

/-- The entry of a contrast from its log ratios. -/
def contrastEntry (metric scheduler : String) (logs : List ℚ) : Except Exc PlannedContrast := do
  let sd := stdev maths logs
  let upper ← sdUpperBound maths sd logs.length
  let effect : ℚ := practicalEffect metric
  let required ← requiredNPaired maths sd effect alphaPerContrast defaultPower
  let requiredUpper ← requiredNPaired maths upper effect alphaPerContrast defaultPower
  .ok
    { scheduler := scheduler
      pairedBlocks := logs.length
      effect := effect
      sdLogRatio := roundSix sd
      requiredN := required
      sdUpper95LogRatio := roundSix upper
      requiredNUpper95 := requiredUpper }

/-- The loop body for an arm. -/
def planArm (workload metric : String) (direction : Option String) (control : List (String × ℚ))
    (arm : String × List (String × ℚ)) : Except Exc PlannedContrast :=
  let shared := sharedBlocks control arm.2
  if shared.length < minPilotPairedBlocks then
    valueError ("pilot for " ++ workload ++ "/" ++ arm.1 ++ " has " ++ toString shared.length ++
      " paired blocks; " ++ toString minPilotPairedBlocks ++ " are required to estimate variance")
  else
    (pairedLogs maths metric direction control arm.2).bind (contrastEntry maths metric arm.1)

/-- `max` of a list that may be empty. -/
def maxOf (ns : List ℕ) : Except Exc ℕ :=
  match ns.max? with
  | some n => .ok n
  | none => valueError "max() arg is an empty sequence"

/-- The scenario of a group. -/
def scenarioOf (workload metric : String) (contrasts : List PlannedContrast) :
    Except Exc Scenario := do
  let descriptive := isDescriptive workload
  let rawRequired ← maxOf (contrasts.map PlannedContrast.requiredN)
  let floored := max rawRequired confirmatoryFloorBlocks
  let frozen := roundUpToMultiple floored balance
  let rawUpper ← maxOf (contrasts.map PlannedContrast.requiredNUpper95)
  .ok
    { scenario := workload
      metric := metric
      descriptive := descriptive
      contrasts := contrasts
      requiredNRaw := rawRequired
      requiredNFloored := floored
      confirmatoryBlocks := if descriptive then none else some frozen
      -- no floor is applied here
      confirmatoryBlocksUpper95 :=
        if descriptive then none else some (roundUpToMultiple rawUpper balance)
      balancedMultiple := balance }

/-- The loop body for a group. -/
def planGroup (entry : (String × String × Option String) × List (String × List (String × ℚ))) :
    Except Exc Scenario :=
  let (workload, metric, direction) := entry.1
  let control := (entry.2.lookup controlScheduler).getD []
  if control.isEmpty then
    valueError ("pilot for " ++ workload ++ "/" ++ metric ++ " has no control arm")
  else
    (Py.traverse (planArm maths workload metric direction control)
      ((entry.2.insertionSort keyLe).filter fun arm => arm.1 ≠ controlScheduler)).bind
    (scenarioOf workload metric)

/-- `plan`. -/
def plan (observations : List (Observation ℚ)) : Except Exc Plan :=
  (Py.traverse (planGroup maths) ((group observations).insertionSort groupLe)).map
    fun scenarios =>
      { schemaVersion := 1
        controlScheduler := controlScheduler
        practicalEffectByMetric := [("latency_p99_ms", 1 / 5)]
        power := defaultPower
        alpha := defaultAlpha
        primaryContrasts := primaryContrasts
        alphaPerContrast := alphaPerContrast
        minBlocks := confirmatoryFloorBlocks
        balanceMultiple := balance
        scenarios := scenarios }

/-! ### Rounding and maxima -/

theorem isLeast_roundUpToMultiple {multiple : ℕ} (hpos : 0 < multiple) (value : ℕ) :
    IsLeast {m | multiple ∣ m ∧ value ≤ m} (roundUpToMultiple value multiple) := by
  constructor
  · refine ⟨Dvd.intro_left _ rfl, ?_⟩
    have := Nat.div_add_mod (value + multiple - 1) multiple
    have hmod := Nat.mod_lt (value + multiple - 1) hpos
    rw [roundUpToMultiple, mul_comm]
    omega
  · rintro m ⟨⟨k, rfl⟩, hle⟩
    rw [roundUpToMultiple, mul_comm]
    refine Nat.mul_le_mul_left _ (Nat.lt_succ_iff.1 ((Nat.div_lt_iff_lt_mul hpos).2 ?_))
    rw [Nat.succ_mul, mul_comm k]
    omega

theorem maxOf_eq_ok {ns : List ℕ} {n : ℕ} (h : maxOf ns = .ok n) : n ∈ ns ∧ ∀ m ∈ ns, m ≤ n := by
  unfold maxOf at h
  split at h
  · rename_i m hm
    cases h
    exact List.max?_eq_some_iff.1 hm
  · cases h

/-! ### The search for a count -/

/-- `(t_alpha + t_beta) * sd_log_ratio / delta` for `n` blocks. -/
def rootAt (sd delta alpha power : ℚ) (n : ℕ) : Except Exc ℚ :=
  (tPpf maths (1 - alpha / 2) (n - 1)).bind fun tAlpha =>
    (tPpf maths power (n - 1)).bind fun tBeta => div ((tAlpha + tBeta) * sd) delta

section Search

variable {maths} {maxN : ℤ} {sd upper delta effect alpha power root root' : ℚ} {n n' left required : ℕ}

/-- One step of the search. -/
theorem requiredLoop_succ_eq_ok :
    requiredLoop maths maxN sd delta alpha power (left + 1) n = .ok required ↔
      ∃ root, rootAt maths sd delta alpha power n = .ok root ∧
        (root ^ 2 ≤ n ∧ required = n ∨ ¬ root ^ 2 ≤ n ∧
          requiredLoop maths maxN sd delta alpha power left (n + 1) = .ok required) := by
  rw [requiredLoop, rootAt]
  cases tPpf maths (1 - alpha / 2) (n - 1) with
  | error e => exact iff_of_false (by rintro ⟨⟩) (by rintro ⟨_, ⟨⟩, -⟩)
  | ok tAlpha =>
    cases tPpf maths power (n - 1) with
    | error e => exact iff_of_false (by rintro ⟨⟩) (by rintro ⟨_, ⟨⟩, -⟩)
    | ok tBeta =>
      show (div ((tAlpha + tBeta) * sd) delta).bind _ = _ ↔
        ∃ root, div ((tAlpha + tBeta) * sd) delta = .ok root ∧ _
      rw [bind_eq_ok]
      refine exists_congr fun root => and_congr_right fun _ => ?_
      split_ifs with henough
      · simp [henough, eq_comm]
      · simp [henough]

/-- The search does not go back. -/
theorem le_requiredLoop (h : requiredLoop maths maxN sd delta alpha power left n = .ok required) :
    n ≤ required := by
  induction left generalizing n with
  | zero => cases h
  | succ left ih =>
    obtain ⟨root, -, ⟨-, rfl⟩ | ⟨-, hrest⟩⟩ := requiredLoop_succ_eq_ok.1 h
    · exact le_rfl
    · exact (Nat.le_succ n).trans (ih hrest)

/-- A larger spread gives a larger square. -/
theorem rootAt_mono (hsd : 0 ≤ sd) (hle : sd ≤ upper)
    (h : rootAt maths sd delta alpha power n = .ok root)
    (h' : rootAt maths upper delta alpha power n = .ok root') : root ^ 2 ≤ root' ^ 2 := by
  obtain ⟨tAlpha, ht, h⟩ := bind_eq_ok.1 h
  obtain ⟨tBeta, ht₂, h⟩ := bind_eq_ok.1 h
  obtain ⟨tAlpha', ht', h'⟩ := bind_eq_ok.1 h'
  obtain ⟨tBeta', ht₂', h'⟩ := bind_eq_ok.1 h'
  cases ht.symm.trans ht'
  cases ht₂.symm.trans ht₂'
  unfold div at h h'
  split_ifs at h h'
  cases h
  cases h'
  rw [div_pow, div_pow, mul_pow, mul_pow]
  gcongr

/-- A larger spread asks for at least as many blocks. -/
theorem requiredLoop_mono (hsd : 0 ≤ sd) (hle : sd ≤ upper)
    (h : requiredLoop maths maxN sd delta alpha power left n = .ok required)
    (h' : requiredLoop maths maxN upper delta alpha power left n = .ok n') : required ≤ n' := by
  induction left generalizing n with
  | zero => cases h
  | succ left ih =>
    obtain ⟨root, hroot, hend⟩ := requiredLoop_succ_eq_ok.1 h
    obtain ⟨root', hroot', hend'⟩ := requiredLoop_succ_eq_ok.1 h'
    have hsquares := rootAt_mono hsd hle hroot hroot'
    rcases hend with ⟨-, rfl⟩ | ⟨hmore, hrest⟩
    · exact le_requiredLoop h'
    · rcases hend' with ⟨henough', -⟩ | ⟨-, hrest'⟩
      · exact absurd (hsquares.trans henough') hmore
      · exact ih hrest hrest'

theorem le_requiredNPaired (h : requiredNPaired maths sd effect alpha power = .ok required) :
    3 ≤ required := by
  rw [requiredNPaired] at h
  split_ifs at h
  · cases h
    exact le_rfl
  · exact le_requiredLoop h

theorem requiredNPaired_mono (hle : sd ≤ upper)
    (h : requiredNPaired maths sd effect alpha power = .ok required)
    (h' : requiredNPaired maths upper effect alpha power = .ok n') : required ≤ n' := by
  have hmin := le_requiredNPaired h'
  rw [requiredNPaired] at h h'
  split_ifs at h with hsd
  · cases h
    exact hmin
  · rw [if_neg (by linarith)] at h'
    exact requiredLoop_mono (le_of_not_ge hsd) hle h h'

/-- More than the three blocks of the start are asked for when there is a spread and three are not
enough for it. -/
theorem three_lt_requiredNPaired_iff
    (h : requiredNPaired maths sd effect alpha power = .ok required) :
    3 < required ↔ 0 < sd ∧
      ∃ root, rootAt maths sd (maths.log (1 + effect)) alpha power 3 = .ok root ∧ 3 < root ^ 2 := by
  rw [requiredNPaired] at h
  split_ifs at h with hsd
  · cases h
    exact iff_of_false (lt_irrefl _) fun hspread => absurd hspread.1 (not_lt.2 hsd)
  · obtain ⟨root, hroot, hend⟩ := requiredLoop_succ_eq_ok.1 h
    rw [FactorialAnalysis.minBlocksForVerdict] at hroot hend
    have hroots : (∃ root, rootAt maths sd (maths.log (1 + effect)) alpha power 3 = .ok root ∧
        3 < root ^ 2) ↔ 3 < root ^ 2 := by
      simp [hroot]
    rw [hroots]
    rcases hend with ⟨henough, rfl⟩ | ⟨hmore, hrest⟩
    · exact iff_of_false (lt_irrefl _) fun hspread => absurd hspread.2 (not_lt.2 henough)
    · exact iff_of_true (le_requiredLoop hrest) ⟨not_le.1 hsd, not_le.1 hmore⟩

end Search

/-! ### The upper bound of a standard deviation -/

/-- What `math.sqrt` has of a square root here. -/
structure SqrtLaws (maths : Maths ℚ) : Prop where
  nonneg : ∀ x, 0 ≤ maths.sqrt x
  one_le : ∀ x, 1 ≤ x → 1 ≤ maths.sqrt x

section UpperBound

variable {maths} {sd upper bound : ℚ} {n df : ℕ}

/-- The normal quantile at the level of the bound is negative. -/
theorem normalPpf_level_neg {z : ℚ} (h : normalPpf maths (1 / 20) = .ok z) : z < 0 := by
  unfold normalPpf at h
  dsimp only at h
  rw [if_neg (by norm_num), if_neg (by norm_num), if_neg (by norm_num)] at h
  cases h
  norm_num [FactorialSampleSize.horner]

theorem chi2Lower_le (laws : SqrtLaws maths) (h : chi2Lower maths (1 / 20) df = .ok bound) :
    bound ≤ df := by
  obtain ⟨z, hz, rfl⟩ := map_eq_ok.1 h
  dsimp only
  have hneg := normalPpf_level_neg hz
  have hterm : 1 - 2 / (9 * (df : ℚ)) + z * maths.sqrt (2 / (9 * df)) ≤ 1 := by
    have hfirst : 0 ≤ 2 / (9 * (df : ℚ)) := by positivity
    have hsecond := mul_nonpos_of_nonpos_of_nonneg hneg.le (laws.nonneg (2 / (9 * (df : ℚ))))
    linarith
  have hcube : (1 - 2 / (9 * (df : ℚ)) + z * maths.sqrt (2 / (9 * df))) ^ 3 ≤ 1 ^ 3 :=
    (Odd.strictMono_pow (by decide : Odd 3)).monotone hterm
  rw [one_pow] at hcube
  exact mul_le_of_le_one_right (Nat.cast_nonneg df) hcube

/-- The bound is not below what it bounds. -/
theorem le_sdUpperBound (laws : SqrtLaws maths) (h : sdUpperBound maths sd n = .ok upper) :
    sd ≤ upper := by
  unfold sdUpperBound at h
  split_ifs at h with hfew
  · cases h
    exact le_rfl
  · obtain ⟨bound, hbound, h⟩ := bind_eq_ok.1 h
    obtain ⟨ratio, hratio, h⟩ := bind_eq_ok.1 h
    obtain ⟨root, hroot, rfl⟩ := map_eq_ok.1 h
    rw [not_or, not_lt, not_le] at hfew
    have hle := chi2Lower_le laws hbound
    obtain ⟨hneg, rfl⟩ : ¬ ratio < 0 ∧ maths.sqrt ratio = root := by
      unfold Maths.sqrtOf at hroot
      split_ifs at hroot with hneg
      · cases hroot
      · exact ⟨hneg, Except.ok.inj hroot⟩
    have hone : 1 ≤ ratio := by
      unfold div at hratio
      split_ifs at hratio with hzero
      cases hratio
      -- the root of a negative ratio is refused, so the bound is positive
      have hdf : (0 : ℚ) < ((n - 1 : ℕ) : ℚ) := by
        rw [Nat.cast_pos]
        omega
      have hpos : 0 < bound := by
        refine lt_of_le_of_ne ?_ (Ne.symm hzero)
        by_contra hlt
        exact hneg (div_neg_of_pos_of_neg hdf (not_le.1 hlt))
      exact (one_le_div hpos).2 hle
    exact le_mul_of_one_le_right hfew.2.le (laws.one_le ratio hone)

end UpperBound

/-! ### The counts of a scenario -/

section Counts

variable {maths} {workload metric : String} {contrasts : List PlannedContrast} {scenario : Scenario}

/-- The contrast asks for more than three blocks: there is an upper bound of its spread for which
three blocks are not enough. -/
def Exceeds (maths : Maths ℚ) (metric : String) (logs : List ℚ) : Prop :=
  ∃ upper, sdUpperBound maths (stdev maths logs) logs.length = .ok upper ∧ 0 < upper ∧
    ∃ root, rootAt maths upper (maths.log (1 + practicalEffect metric)) alphaPerContrast
      defaultPower 3 = .ok root ∧ 3 < root ^ 2

theorem contrastEntry_eq_ok {scheduler : String} {logs : List ℚ} {entry : PlannedContrast}
    (laws : SqrtLaws maths) (h : contrastEntry maths metric scheduler logs = .ok entry) :
    entry.scheduler = scheduler ∧
      requiredNPaired maths (stdev maths logs) (practicalEffect metric) alphaPerContrast
        defaultPower = .ok entry.requiredN ∧
      entry.requiredN ≤ entry.requiredNUpper95 ∧
      (3 < entry.requiredNUpper95 ↔ Exceeds maths metric logs) ∧ 3 ≤ entry.requiredNUpper95 := by
  obtain ⟨upper, hupper, h⟩ := bind_eq_ok.1 h
  obtain ⟨required, hrequired, h⟩ := bind_eq_ok.1 h
  obtain ⟨requiredUpper, hrequiredUpper, h⟩ := bind_eq_ok.1 h
  cases h
  refine ⟨rfl, hrequired, requiredNPaired_mono (le_sdUpperBound laws hupper) hrequired
    hrequiredUpper, ?_, le_requiredNPaired hrequiredUpper⟩
  rw [three_lt_requiredNPaired_iff hrequiredUpper]
  constructor
  · exact fun hspread => ⟨upper, hupper, hspread⟩
  · rintro ⟨other, hother, hspread⟩
    cases hupper.symm.trans hother
    exact hspread

/-- What a count has to be for the contrasts of a scenario. -/
def Suffices (contrasts : List PlannedContrast) (count : ℕ) : Prop :=
  balance ∣ count ∧ confirmatoryFloorBlocks ≤ count ∧ ∀ c ∈ contrasts, c.requiredN ≤ count

/-- **The count that is frozen** is the least one that suffices. -/
theorem isLeast_confirmatoryBlocks (h : scenarioOf workload metric contrasts = .ok scenario)
    {count : ℕ} (hcount : scenario.confirmatoryBlocks = some count) :
    IsLeast {m | Suffices scenario.contrasts m} count := by
  obtain ⟨raw, hraw, h⟩ := bind_eq_ok.1 h
  obtain ⟨rawUpper, -, h⟩ := bind_eq_ok.1 h
  cases h
  dsimp only at hcount ⊢
  split_ifs at hcount
  cases hcount
  obtain ⟨hmem, hmax⟩ := maxOf_eq_ok hraw
  have hsuffices : ∀ m, Suffices contrasts m ↔
      balance ∣ m ∧ max raw confirmatoryFloorBlocks ≤ m := by
    intro m
    obtain ⟨c, hc, rfl⟩ := List.mem_map.1 hmem
    rw [Suffices, max_le_iff, and_comm (a := c.requiredN ≤ m)]
    refine and_congr_right fun _ => and_congr_right fun _ => ⟨fun hall => hall c hc, ?_⟩
    exact fun hle d hd => (hmax _ (List.mem_map_of_mem hd)).trans hle
  simp only [hsuffices]
  exact isLeast_roundUpToMultiple (by decide) _

/-- The two counts of a scenario whose contrasts ask for at least as many blocks at the upper bound
are in order when one of them asks for more than three there. -/
theorem counts_le_iff (h : scenarioOf workload metric contrasts = .ok scenario)
    (hmono : ∀ c ∈ contrasts, c.requiredN ≤ c.requiredNUpper95)
    (hmin : ∀ c ∈ contrasts, 3 ≤ c.requiredNUpper95) :
    (∀ count upper, scenario.confirmatoryBlocks = some count →
        scenario.confirmatoryBlocksUpper95 = some upper → count ≤ upper) ↔
      (isDescriptive workload = false → ∃ c ∈ contrasts, 3 < c.requiredNUpper95) := by
  obtain ⟨raw, hraw, h⟩ := bind_eq_ok.1 h
  obtain ⟨rawUpper, hrawUpper, h⟩ := bind_eq_ok.1 h
  cases h
  dsimp only
  cases isDescriptive workload with
  | true => simp
  | false =>
    obtain ⟨hmem, hmax⟩ := maxOf_eq_ok hraw
    obtain ⟨hmemUpper, hmaxUpper⟩ := maxOf_eq_ok hrawUpper
    obtain ⟨c, hc, rfl⟩ := List.mem_map.1 hmem
    obtain ⟨d, hd, rfl⟩ := List.mem_map.1 hmemUpper
    have hle : c.requiredN ≤ d.requiredNUpper95 :=
      (hmono c hc).trans (hmaxUpper _ (List.mem_map_of_mem hc))
    have hexists : (∃ c ∈ contrasts, 3 < c.requiredNUpper95) ↔ 3 < d.requiredNUpper95 := by
      refine ⟨fun ⟨e, he, hmore⟩ => ?_, fun hmore => ⟨d, hd, hmore⟩⟩
      exact hmore.trans_le (hmaxUpper _ (List.mem_map_of_mem he))
    have hthree := hmin d hd
    have hcounts : ∀ m n : ℕ, (∀ count upper, some m = some count → some n = some upper →
        count ≤ upper) ↔ m ≤ n := by
      refine fun m n => ⟨fun h => h m n rfl rfl, ?_⟩
      rintro h _ _ ⟨⟩ ⟨⟩
      exact h
    simp only [Bool.false_eq_true, if_false, true_imp_iff, hexists, hcounts, roundUpToMultiple,
      balance, confirmatoryFloorBlocks]
    omega

end Counts

/-! ### The counts of a plan -/

section Plan

variable {maths} {observations : List (Observation ℚ)} {planned : Plan}

/-- The arm was measured in the group. -/
structure IsArm (observations : List (Observation ℚ)) (key : String × String × Option String)
    (scheduler : String) : Prop where
  notControl : scheduler ≠ controlScheduler
  measured : ∃ obs ∈ observations, obs.key = key ∧ obs.scheduler = scheduler

/-- The upper bound of the spread of an arm asks for more than three blocks. -/
structure Spread (maths : Maths ℚ) (observations : List (Observation ℚ))
    (key : String × String × Option String) (scheduler : String) : Prop extends
    IsArm observations key scheduler where
  exceeds : ∃ logs, pairedLogs maths key.2.1 key.2.2 (blocksOf observations key controlScheduler)
    (blocksOf observations key scheduler) = .ok logs ∧ Exceeds maths key.2.1 logs

/-- The counts of a scenario are as the protocol wants them. -/
structure Sound (scenario : Scenario) : Prop where
  least : ∀ count, scenario.confirmatoryBlocks = some count →
    IsLeast {m | Suffices scenario.contrasts m} count
  upper : ∀ count upper, scenario.confirmatoryBlocks = some count →
    scenario.confirmatoryBlocksUpper95 = some upper → count ≤ upper

theorem mem_arms {bySched : List (String × List (String × ℚ))} {arm : String × List (String × ℚ)} :
    arm ∈ (bySched.insertionSort keyLe).filter (fun arm => arm.1 ≠ controlScheduler) ↔
      arm ∈ bySched ∧ arm.1 ≠ controlScheduler := by
  rw [List.mem_filter, List.mem_insertionSort, decide_eq_true_eq]

theorem planArm_eq_ok {workload metric : String} {direction : Option String}
    {control : List (String × ℚ)} {arm : String × List (String × ℚ)} {entry : PlannedContrast}
    (h : planArm maths workload metric direction control arm = .ok entry) :
    ∃ logs, pairedLogs maths metric direction control arm.2 = .ok logs ∧
      contrastEntry maths metric arm.1 logs = .ok entry := by
  rw [planArm] at h
  split_ifs at h
  · cases h
  · exact bind_eq_ok.1 h

/-- The contrasts of a group are those of its arms. -/
theorem planGroup_eq_ok {key : String × String × Option String} {scenario : Scenario}
    (h : planGroup maths (key, schedulersOf observations key) = .ok scenario) :
    ∃ contrasts, scenarioOf key.1 key.2.1 contrasts = .ok scenario ∧
      (∀ entry ∈ contrasts, ∃ scheduler, IsArm observations key scheduler ∧
        planArm maths key.1 key.2.1 key.2.2 (blocksOf observations key controlScheduler)
          (scheduler, blocksOf observations key scheduler) = .ok entry) ∧
      ∀ scheduler, IsArm observations key scheduler → ∃ entry ∈ contrasts,
        planArm maths key.1 key.2.1 key.2.2 (blocksOf observations key controlScheduler)
          (scheduler, blocksOf observations key scheduler) = .ok entry := by
  rw [planGroup, lookup_schedulersOf] at h
  dsimp only at h
  split_ifs at h
  · cases h
  · obtain ⟨contrasts, hcontrasts, h⟩ := bind_eq_ok.1 h
    refine ⟨contrasts, h, fun entry hentry => ?_, fun scheduler hscheduler => ?_⟩
    · obtain ⟨⟨scheduler, blocks⟩, harm, hok⟩ := (mem_traverse hcontrasts).1 hentry
      obtain ⟨hmem, hne⟩ := mem_arms.1 harm
      obtain ⟨hmeasured, rfl⟩ := mem_schedulersOf.1 hmem
      exact ⟨scheduler, ⟨hne, hmeasured⟩, hok⟩
    · have harm := mem_arms.2
        ⟨mem_schedulersOf.2 ⟨hscheduler.measured, rfl⟩, hscheduler.notControl⟩
      obtain ⟨entry, hok⟩ := traverse_isOk.1 ⟨_, hcontrasts⟩ _ harm
      exact ⟨entry, (mem_traverse hcontrasts).2 ⟨_, harm, hok⟩, hok⟩

theorem mem_scenarios (h : plan maths observations = .ok planned) {scenario : Scenario} :
    scenario ∈ planned.scenarios ↔ ∃ obs ∈ observations,
      planGroup maths (obs.key, schedulersOf observations obs.key) = .ok scenario := by
  obtain ⟨scenarios, hscenarios, rfl⟩ := map_eq_ok.1 h
  show scenario ∈ scenarios ↔ _
  rw [mem_traverse hscenarios]
  constructor
  · rintro ⟨⟨key, bySched⟩, hgroup, hok⟩
    obtain ⟨⟨obs, hobs, rfl⟩, rfl⟩ := mem_group.1 ((List.mem_insertionSort _).1 hgroup)
    exact ⟨obs, hobs, hok⟩
  · rintro ⟨obs, hobs, hok⟩
    exact ⟨_, (List.mem_insertionSort _).2 (mem_group.2 ⟨⟨obs, hobs, rfl⟩, rfl⟩), hok⟩

/-- Every group of the pilot has its scenario. -/
theorem exists_planGroup (h : plan maths observations = .ok planned) {obs : Observation ℚ}
    (hobs : obs ∈ observations) :
    ∃ scenario, planGroup maths (obs.key, schedulersOf observations obs.key) = .ok scenario := by
  obtain ⟨scenarios, hscenarios, -⟩ := map_eq_ok.1 h
  exact traverse_isOk.1 ⟨_, hscenarios⟩ _
    ((List.mem_insertionSort _).2 (mem_group.2 ⟨⟨obs, hobs, rfl⟩, rfl⟩))

/-- The scenario of one group. -/
theorem sound_iff (laws : SqrtLaws maths) {key : String × String × Option String}
    {scenario : Scenario}
    (h : planGroup maths (key, schedulersOf observations key) = .ok scenario) :
    Sound scenario ↔
      (isDescriptive key.1 = false → ∃ scheduler, Spread maths observations key scheduler) := by
  obtain ⟨contrasts, hscenario, hentries, harms⟩ := planGroup_eq_ok h
  have hlogs : ∀ entry ∈ contrasts, ∃ scheduler logs, IsArm observations key scheduler ∧
      pairedLogs maths key.2.1 key.2.2 (blocksOf observations key controlScheduler)
        (blocksOf observations key scheduler) = .ok logs ∧
      contrastEntry maths key.2.1 scheduler logs = .ok entry := by
    intro entry hentry
    obtain ⟨scheduler, harm, hok⟩ := hentries entry hentry
    obtain ⟨logs, hlogs, hentry⟩ := planArm_eq_ok hok
    exact ⟨scheduler, logs, harm, hlogs, hentry⟩
  have hcounts := counts_le_iff hscenario
    (fun entry hentry => by
      obtain ⟨_, _, -, -, hok⟩ := hlogs entry hentry
      exact (contrastEntry_eq_ok laws hok).2.2.1)
    (fun entry hentry => by
      obtain ⟨_, _, -, -, hok⟩ := hlogs entry hentry
      exact (contrastEntry_eq_ok laws hok).2.2.2.2)
  have hspread : (∃ c ∈ contrasts, 3 < c.requiredNUpper95) ↔
      ∃ scheduler, Spread maths observations key scheduler := by
    constructor
    · rintro ⟨entry, hentry, hmore⟩
      obtain ⟨scheduler, logs, harm, hlogs, hok⟩ := hlogs entry hentry
      exact ⟨scheduler, harm, logs, hlogs, (contrastEntry_eq_ok laws hok).2.2.2.1.1 hmore⟩
    · rintro ⟨scheduler, harm, logs, hlogs, hexceeds⟩
      obtain ⟨entry, hentry, hok⟩ := harms scheduler harm
      obtain ⟨logs', hlogs', hentry'⟩ := planArm_eq_ok hok
      cases hlogs.symm.trans hlogs'
      exact ⟨entry, hentry, (contrastEntry_eq_ok laws hentry').2.2.2.1.2 hexceeds⟩
  rw [← hspread, ← hcounts]
  exact ⟨Sound.upper, fun hupper =>
    ⟨fun count hcount => isLeast_confirmatoryBlocks hscenario hcount, hupper⟩⟩

/-- **When the two counts are in order**: the plan is as the protocol wants it if and only if every
group with a verdict has an arm whose upper bound asks for more than three blocks. -/
theorem plan_sound_iff (laws : SqrtLaws maths) (h : plan maths observations = .ok planned) :
    (∀ scenario ∈ planned.scenarios, Sound scenario) ↔
      ∀ obs ∈ observations, isDescriptive obs.workload = false →
        ∃ scheduler, Spread maths observations obs.key scheduler := by
  constructor
  · intro hsound obs hobs
    obtain ⟨scenario, hscenario⟩ := exists_planGroup h hobs
    exact (sound_iff laws hscenario).1 (hsound scenario ((mem_scenarios h).2 ⟨obs, hobs, hscenario⟩))
  · intro hspread scenario hmem
    obtain ⟨obs, hobs, hscenario⟩ := (mem_scenarios h).1 hmem
    exact (sound_iff laws hscenario).2 (hspread obs hobs)

end Plan

/-! ### A pilot without any spread -/

/-- The rough root has the laws. -/
theorem sqrtLaws_roughMaths : SqrtLaws roughMaths where
  nonneg x := div_nonneg (Nat.cast_nonneg _) (Nat.cast_nonneg _)
  one_le x hx := by
    have hden : 0 < Nat.sqrt x.den := Nat.sqrt_pos.2 x.den_pos
    have hle : x.den ≤ x.num.toNat := by
      have hnum := (Rat.le_iff 1 x).1 hx
      rw [Rat.num_one, Rat.den_one, one_mul, Nat.cast_one, mul_one] at hnum
      omega
    refine (one_le_div (Nat.cast_pos.2 hden)).2 ?_
    exact Nat.cast_le.2 (Nat.sqrt_le_sqrt hle)

/-- Three blocks in which an arm measures what the control does. -/
def evenPilot : List (Observation ℚ) :=
  ["eevdf", "scx_lavd"].flatMap fun scheduler => ["1", "2", "3"].map fun block =>
    { blockId := block
      workload := "hackbench"
      metric := "throughput"
      scheduler := scheduler
      value := 100
      direction := some "higher-is-better" }

theorem plan_evenPilot :
    ∃ planned, plan roughMaths evenPilot = .ok planned ∧
      planned.scenarios.map (fun scenario => (scenario.confirmatoryBlocks,
        scenario.confirmatoryBlocksUpper95)) = [(some 6, some 3)] := by
  have hcounts : (plan roughMaths evenPilot).map (fun planned => planned.scenarios.map
      fun scenario => (scenario.confirmatoryBlocks, scenario.confirmatoryBlocksUpper95)) =
        .ok [(some 6, some 3)] := by
    decide +kernel
  exact map_eq_ok.1 hcounts

/-- What the criterion says about it: no arm has a spread. -/
theorem plan_sound_iff_evenPilot :
    ∃ planned, plan roughMaths evenPilot = .ok planned ∧
      ((∀ scenario ∈ planned.scenarios, Sound scenario) ↔
        ∀ obs ∈ evenPilot, isDescriptive obs.workload = false →
          ∃ scheduler, Spread roughMaths evenPilot obs.key scheduler) := by
  obtain ⟨planned, hplanned, -⟩ := plan_evenPilot
  exact ⟨planned, hplanned, plan_sound_iff sqrtLaws_roughMaths hplanned⟩

/-- **Six blocks, and three at the upper bound.** -/
theorem not_sound_evenPilot : ¬ ∀ (observations : List (Observation ℚ)) (planned : Plan),
    plan roughMaths observations = .ok planned → ∀ scenario ∈ planned.scenarios, Sound scenario := by
  intro h
  obtain ⟨planned, hplanned, hcounts⟩ := plan_evenPilot
  obtain ⟨scenario, hscenarios, hcount⟩ := List.map_eq_singleton_iff.1 hcounts
  obtain ⟨hcount, hupper⟩ := Prod.mk.inj hcount
  have hsound := h evenPilot planned hplanned scenario (by rw [hscenarios]; exact .head _)
  exact absurd (hsound.upper 6 3 hcount hupper) (by decide)

end SampleSize

end LinuxSched

import K8Labs.LinuxSched.FactorialAnalysis
import K8Labs.Python.Number

/-!
# The factorial sample-size plan

`research/linux-sched/analysis/factorial_sample_size.py`: `plan` groups the pilot observations as
the factorial analysis does and sizes, per group, the contrasts of its own enumeration.

* `mem_plannedKeys`, `mem_evaluatedKeys`: which contrasts the plan sizes and which the analysis
  evaluates, in terms of the observations.
* `plan_covers_iff`: **the plan sizes every evaluated contrast exactly when no arm with enough
  blocks without quota lies in a group whose control has both policies, unless a group of another
  direction sizes it.**
-/

namespace LinuxSched

namespace FactorialSampleSize

open Py FactorialAnalysis

/-! ### Constants -/

/-- `BALANCE`. -/
def balance : ℕ := 12

/-- `CONFIRMATORY_FLOOR_BLOCKS`. -/
def confirmatoryFloorBlocks : ℕ := 12

/-- `MIN_PILOT_PAIRED_BLOCKS`. -/
def minPilotPairedBlocks : ℕ := 3

/-- `DEFAULT_ALPHA`. -/
def defaultAlpha : ℚ := 1 / 20

/-- `DEFAULT_POWER`. -/
def defaultPower : ℚ := 9 / 10

/-- `PRIMARY_CONTRASTS`. -/
def primaryContrasts : ℕ := (familySizes.map Prod.snd).sum

/-! ### Variance and required blocks -/

section Numbers

variable (maths : Maths ℚ)

/-- The value of a polynomial, the highest coefficient first. -/
def horner (coefficients : List ℚ) (x : ℚ) : ℚ :=
  coefficients.foldl (fun value coefficient => value * x + coefficient) 0

/-- `_normal_ppf`, Acklam's rational approximation. -/
def normalPpf (p : ℚ) : Except Exc ℚ :=
  let a := [-39.69683028665376, 220.9460984245205, -275.9285104469687, 138.3577518672690,
    -30.66479806614716, 2.506628277459239]
  let b := [-54.47609879822406, 161.5858368580409, -155.6989798598866, 66.80131188771972,
    -13.28068155288572, 1]
  let c := [-0.007784894002430293, -0.3223964580411365, -2.400758277161838, -2.549732539343734,
    4.374664141464968, 2.938163982698783]
  let d := [0.007784695709041462, 0.3224671290700398, 2.445134137142996, 3.754408661907416, 1]
  let low : ℚ := 0.02425
  let high := 1 - low
  if ¬ (0 < p ∧ p < 1) then valueError "p must be in (0, 1)"
  else if p < low then
    let q := maths.sqrt (-2 * maths.log p)
    .ok (horner c q / horner d q)
  else if high < p then
    let q := maths.sqrt (-2 * maths.log (1 - p))
    .ok (-(horner c q) / horner d q)
  else
    let q := p - 1 / 2
    let r := q * q
    .ok (horner a r * q / horner b r)

/-- `_chi2_lower`. -/
def chi2Lower (p : ℚ) (df : ℕ) : Except Exc ℚ :=
  (normalPpf maths p).map fun z =>
    let term := 1 - 2 / (9 * df) + z * maths.sqrt (2 / (9 * df))
    df * term ^ 3

/-- `sd_upper_bound`. -/
def sdUpperBound (sd : ℚ) (n : ℕ) : Except Exc ℚ :=
  if n < 2 ∨ sd ≤ 0 then .ok sd
  else
    let df := n - 1
    (chi2Lower maths (1 / 20) df).bind fun bound =>
      (div (df : ℚ) bound).bind fun ratio =>
        (maths.sqrtOf ratio).map fun root => sd * root

/-- The loop of `required_n_paired`, with the number of iterations that are left. -/
def requiredLoop (maxN : ℤ) (sd delta alpha power : ℚ) : ℕ → ℕ → Except Exc ℕ
  | 0, _ => valueError ("required paired blocks exceed " ++ toString maxN ++ "; the effect is too " ++
      "small for this variance to be resolved, so the count is not silently capped")
  | left + 1, n =>
    (tPpf maths (1 - alpha / 2) (n - 1)).bind fun tAlpha =>
      (tPpf maths power (n - 1)).bind fun tBeta =>
        (div ((tAlpha + tBeta) * sd) delta).bind fun root =>
          if root ^ 2 ≤ n then .ok n else requiredLoop maxN sd delta alpha power left (n + 1)

/-- `required_n_paired` with the default of its bound, for an effect above -1. -/
def requiredNPaired (sdLogRatio practicalEffect alpha power : ℚ) : Except Exc ℕ :=
  if sdLogRatio ≤ 0 then .ok minBlocksForVerdict
  else
    requiredLoop maths 100000 sdLogRatio (maths.log (1 + practicalEffect)) alpha power
      (100000 - minBlocksForVerdict + 1) minBlocksForVerdict

/-- `round_up_to_multiple`. -/
def roundUpToMultiple (value multiple : ℕ) : ℕ := (value + multiple - 1) / multiple * multiple

/-- `round(x, 6)`. -/
def roundSix (x : ℚ) : ℚ := roundHalfEven (x * 10 ^ 6) / 10 ^ 6

end Numbers

/-! ### The plan -/

/-- An entry of `contrasts`. -/
structure PlannedContrast where
  scheduler : String
  /-- `none` also where the entry has no policy. -/
  policy : Option String
  contrast : ContrastKind
  pairedBlocks : ℕ
  effect : ℚ
  sdLogRatio : ℚ
  requiredN : ℕ
  sdUpper95LogRatio : ℚ
  requiredNUpper95 : ℕ

/-- An entry of `scenarios`. -/
structure Scenario where
  scenario : String
  metric : String
  descriptive : Bool
  contrasts : List PlannedContrast
  requiredNRaw : ℕ
  requiredNFloored : ℕ
  confirmatoryBlocks : Option ℕ
  confirmatoryBlocksUpper95 : Option ℕ
  balancedMultiple : ℕ

/-- The record that `plan` returns. -/
structure Plan where
  schemaVersion : ℕ
  controlScheduler : String
  performanceEffect : ℚ
  throttleEffect : ℚ
  power : ℚ
  alpha : ℚ
  primaryContrasts : ℕ
  alphaPerContrast : ℚ
  minBlocks : ℕ
  balanceMultiple : ℕ
  policies : List (Option String)
  scenarios : List Scenario

section Planning

variable (maths : Maths ℚ)

/-- The entry of a contrast from its log ratios, with `_required_for_logs`. -/
def contrastEntry (metric scheduler : String) (policy : Option String) (contrast : ContrastKind)
    (logs : List ℚ) : Except Exc PlannedContrast := do
  let sd := if 2 ≤ logs.length then stdev maths logs else 0
  let upper ← sdUpperBound maths sd logs.length
  let effect : ℚ := practicalEffect metric
  let alpha := defaultAlpha / primaryContrasts
  let required ← requiredNPaired maths sd effect alpha defaultPower
  let requiredUpper ← requiredNPaired maths upper effect alpha defaultPower
  .ok
    { scheduler := scheduler
      policy := policy
      contrast := contrast
      pairedBlocks := logs.length
      effect := effect
      sdLogRatio := roundSix sd
      requiredN := required
      sdUpper95LogRatio := roundSix upper
      requiredNUpper95 := requiredUpper }

variable (g : ArmGroup ℚ) (scheduler : String) (arm : ByPolicy ℚ)

/-- The error for too few blocks. -/
def tooFewBlocks {α : Type} (shared : List String) : Except Exc α :=
  valueError ("pilot for " ++ g.workload ++ "/" ++ scheduler ++ " has " ++
    toString shared.length ++ " paired blocks; " ++ toString minPilotPairedBlocks ++
    " are required to estimate variance")

/-- The comparison of an arm with the control under one policy. -/
def planPolicy (contrast : ContrastKind) (policy : Option String)
    (controlValues armValues : List (String × ℚ)) : Except Exc PlannedContrast :=
  let shared := sharedBlocks controlValues armValues
  if shared.length < minPilotPairedBlocks then tooFewBlocks g scheduler shared
  else
    (logRatios maths (isLowerBetter lowerIsBetter g.metric g.direction) controlValues armValues
      shared).bind fun logs => contrastEntry maths g.metric scheduler policy contrast logs

/-- The quota interaction of an arm. -/
def planInteraction : Except Exc PlannedContrast :=
  let shared := interactionBlocks g.control arm
  if shared.length < minPilotPairedBlocks then tooFewBlocks g scheduler shared
  else
    (Py.traverse (fun block =>
      (orientedLogRatio maths (((ofPolicy g.control unlimited).lookup block).getD 0)
        (((ofPolicy arm unlimited).lookup block).getD 0)
        (isLowerBetter lowerIsBetter g.metric g.direction)).bind fun rUnlim =>
      (orientedLogRatio maths (((ofPolicy g.control limited).lookup block).getD 0)
        (((ofPolicy arm limited).lookup block).getD 0)
        (isLowerBetter lowerIsBetter g.metric g.direction)).map fun rLim => rLim - rUnlim)
      shared).bind
    fun logs => contrastEntry maths g.metric scheduler none .performanceInteraction logs

/-- Both policies are present, and the control has them. -/
def planInteractions : Prop :=
  2 ≤ g.policies.length ∧ unlimited ∈ g.policies ∧ limited ∈ g.policies ∧
    unlimited ∈ g.control.map Prod.fst ∧ limited ∈ g.control.map Prod.fst

instance : Decidable (planInteractions g) := inferInstanceAs (Decidable (_ ∧ _))

/-- The entries of an arm. -/
def planArm : Except Exc (List PlannedContrast) :=
  if isThrottle g.metric = true then
    let policy := targetPolicy g.policies
    (planPolicy maths g scheduler .throttling policy (ofPolicy g.control policy)
      (ofPolicy arm policy)).map fun entry => [entry]
  else if planInteractions g then
    if unlimited ∈ arm.map Prod.fst ∧ limited ∈ arm.map Prod.fst then
      (planInteraction maths g scheduler arm).map fun entry => [entry]
    else .ok []
  else
    Py.traverse (fun entry => planPolicy maths g scheduler .performance entry.1
      (ofPolicy g.control entry.1) entry.2) (arm.insertionSort fun a b => policyLe a.1 b.1)

/-- The scenario of a group. -/
def scenarioOf (workload metric : String) (contrasts : List PlannedContrast) : Scenario :=
  let rawRequired := (contrasts.map PlannedContrast.requiredN).foldl max 0
  let rawUpper := (contrasts.map PlannedContrast.requiredNUpper95).foldl max 0
  let floored := max rawRequired confirmatoryFloorBlocks
  let freeze := fun n =>
    if isDescriptive workload then none else some (roundUpToMultiple n balance)
  { scenario := workload
    metric := metric
    descriptive := isDescriptive workload
    contrasts := contrasts
    requiredNRaw := rawRequired
    requiredNFloored := floored
    confirmatoryBlocks := freeze floored
    confirmatoryBlocksUpper95 := freeze (max rawUpper confirmatoryFloorBlocks)
    balancedMultiple := balance }

/-- The loop body for a group. -/
def planGroup (entry : GroupKey × List (String × ByPolicy ℚ)) : Except Exc Scenario :=
  let (workload, metric, direction) := entry.1
  let control := (entry.2.lookup controlScheduler).getD []
  if control.isEmpty then
    valueError ("pilot for " ++ workload ++ "/" ++ metric ++ " has no control arm")
  else
    let g : ArmGroup ℚ :=
      { workload := workload
        metric := metric
        direction := direction
        policies := policiesPresent entry.2
        control := control }
    (Py.traverse (fun arm => planArm maths g arm.1 arm.2) (arms entry.2)).map fun contrasts =>
      scenarioOf workload metric contrasts.flatten

/-- `plan`. -/
def plan (observations : List (Observation ℚ)) : Except Exc Plan :=
  (Py.traverse (planGroup maths)
    ((group observations).insertionSort SchedAnalysis.groupLe)).map fun scenarios =>
    { schemaVersion := 1
      controlScheduler := controlScheduler
      performanceEffect := 1 / 20
      throttleEffect := 1 / 10
      power := defaultPower
      alpha := defaultAlpha
      primaryContrasts := primaryContrasts
      alphaPerContrast := defaultAlpha / primaryContrasts
      minBlocks := confirmatoryFloorBlocks
      balanceMultiple := balance
      policies := [unlimited, limited]
      scenarios := scenarios }

end Planning

/-! ### The contrasts the plan sizes -/

/-- What names a contrast for both programs. -/
structure ContrastKey where
  workload : String
  metric : String
  scheduler : String
  contrast : ContrastKind
  policy : Option String
  deriving DecidableEq

/-- The contrasts the analysis evaluates. -/
def evaluatedKeys (result : AnalysisResult Label ℚ) : List ContrastKey :=
  result.verdicts.map fun v =>
    { workload := v.label.workload
      metric := v.label.metric
      scheduler := v.label.scheduler
      contrast := v.label.contrast
      policy := v.label.policy }

/-- The contrasts the plan sizes. -/
def plannedKeys (planned : Plan) : List ContrastKey :=
  planned.scenarios.flatMap fun scenario => scenario.contrasts.map fun entry =>
    { workload := scenario.scenario
      metric := scenario.metric
      scheduler := entry.scheduler
      contrast := entry.contrast
      policy := entry.policy }

section Planned

variable {maths : Maths ℚ} {g : ArmGroup ℚ} {scheduler : String} {arm : ByPolicy ℚ}
  {observations : List (Observation ℚ)}

/-- What an entry of the plan is about. -/
structure IsEntry (scheduler : String) (contrast : ContrastKind) (policy : Option String)
    (entry : PlannedContrast) : Prop where
  scheduler : entry.scheduler = scheduler
  contrast : entry.contrast = contrast
  policy : entry.policy = policy

theorem isEntry_contrastEntry {metric : String} {policy : Option String} {contrast : ContrastKind}
    {logs : List ℚ} {entry : PlannedContrast}
    (h : contrastEntry maths metric scheduler policy contrast logs = .ok entry) :
    IsEntry scheduler contrast policy entry := by
  obtain ⟨_, -, h⟩ := bind_eq_ok.1 h
  obtain ⟨_, -, h⟩ := bind_eq_ok.1 h
  obtain ⟨_, -, h⟩ := bind_eq_ok.1 h
  cases h
  exact ⟨rfl, rfl, rfl⟩

theorem isEntry_planPolicy {policy : Option String} {contrast : ContrastKind}
    {controlValues armValues : List (String × ℚ)} {entry : PlannedContrast}
    (h : planPolicy maths g scheduler contrast policy controlValues armValues = .ok entry) :
    IsEntry scheduler contrast policy entry := by
  rw [planPolicy] at h
  split_ifs at h
  · cases h
  · obtain ⟨logs, -, h⟩ := bind_eq_ok.1 h
    exact isEntry_contrastEntry h

theorem isEntry_planInteraction {entry : PlannedContrast}
    (h : planInteraction maths g scheduler arm = .ok entry) :
    IsEntry scheduler .performanceInteraction none entry := by
  rw [planInteraction] at h
  split_ifs at h
  · cases h
  · obtain ⟨logs, -, h⟩ := bind_eq_ok.1 h
    exact isEntry_contrastEntry h

/-- The contrasts that the plan enumerates for an arm. -/
def Plans (g : ArmGroup ℚ) (arm : ByPolicy ℚ) (contrast : ContrastKind) (policy : Option String) :
    Prop :=
  if isThrottle g.metric = true then contrast = .throttling ∧ policy = targetPolicy g.policies
  else if planInteractions g then
    (contrast = .performanceInteraction ∧ policy = none) ∧
      unlimited ∈ arm.map Prod.fst ∧ limited ∈ arm.map Prod.fst
  else contrast = .performance ∧ policy ∈ arm.map Prod.fst

theorem planArm_entries {entries : List PlannedContrast}
    (h : planArm maths g scheduler arm = .ok entries) :
    (∀ entry ∈ entries, Plans g arm entry.contrast entry.policy ∧ entry.scheduler = scheduler) ∧
    ∀ contrast policy, Plans g arm contrast policy →
      ∃ entry ∈ entries, IsEntry scheduler contrast policy entry := by
  rw [planArm] at h
  -- one throttling contrast, one interaction if the arm has both policies, or every policy
  split_ifs at h with hthrottle hboth harm
  · obtain ⟨entry, hentry, rfl⟩ := map_eq_ok.1 h
    have hkey := isEntry_planPolicy hentry
    constructor
    · simp only [List.mem_singleton, forall_eq, Plans, if_pos hthrottle]
      exact ⟨⟨hkey.contrast, hkey.policy⟩, hkey.scheduler⟩
    · rintro contrast policy hplans
      rw [Plans, if_pos hthrottle] at hplans
      obtain ⟨rfl, rfl⟩ := hplans
      exact ⟨entry, List.mem_singleton_self _, hkey⟩
  · obtain ⟨entry, hentry, rfl⟩ := map_eq_ok.1 h
    have hkey := isEntry_planInteraction hentry
    constructor
    · simp only [List.mem_singleton, forall_eq, Plans, if_neg hthrottle, if_pos hboth]
      exact ⟨⟨⟨hkey.contrast, hkey.policy⟩, harm⟩, hkey.scheduler⟩
    · rintro contrast policy hplans
      rw [Plans, if_neg hthrottle, if_pos hboth] at hplans
      obtain ⟨⟨rfl, rfl⟩, -⟩ := hplans
      exact ⟨entry, List.mem_singleton_self _, hkey⟩
  · cases h
    refine ⟨by simp, fun contrast policy hplans => ?_⟩
    rw [Plans, if_neg hthrottle, if_pos hboth] at hplans
    exact absurd hplans.2 harm
  · constructor
    · intro entry hentry
      obtain ⟨⟨policy, values⟩, hmem, hok⟩ := (mem_traverse h).1 hentry
      have hkey := isEntry_planPolicy hok
      rw [Plans, if_neg hthrottle, if_neg hboth, hkey.policy]
      exact ⟨⟨hkey.contrast, List.mem_map.2 ⟨_, (List.mem_insertionSort _).1 hmem, rfl⟩⟩,
        hkey.scheduler⟩
    · intro contrast policy hplans
      rw [Plans, if_neg hthrottle, if_neg hboth] at hplans
      obtain ⟨rfl, hpolicy⟩ := hplans
      obtain ⟨⟨policy, values⟩, hmem, rfl⟩ := List.mem_map.1 hpolicy
      have hsorted := (List.mem_insertionSort (fun a b => policyLe a.1 b.1)).2 hmem
      obtain ⟨entry, hentry⟩ := traverse_isOk.1 ⟨_, h⟩ _ hsorted
      exact ⟨entry, (mem_traverse h).2 ⟨_, hsorted, hentry⟩, isEntry_planPolicy hentry⟩

theorem planGroup_eq_ok {key : GroupKey} {scenario : Scenario}
    (h : planGroup maths (key, schedulersOf observations key) = .ok scenario) :
    HasControl observations key ∧ ∃ contrasts,
      Py.traverse (fun arm => planArm maths (groupOf observations key) arm.1 arm.2)
        (arms (schedulersOf observations key)) = .ok contrasts ∧
      scenario = scenarioOf key.1 key.2.1 contrasts.flatten := by
  rw [planGroup, lookup_schedulersOf] at h
  dsimp only at h
  split_ifs at h with hempty
  · cases h
  · obtain ⟨contrasts, hcontrasts, rfl⟩ := map_eq_ok.1 h
    exact ⟨policiesOf_ne_nil.1 (by simpa using hempty), contrasts, hcontrasts, rfl⟩

/-- **The contrasts of the plan**: what it enumerates for the arms of the groups. -/
theorem mem_plannedKeys {planned : Plan} (h : plan maths observations = .ok planned)
    {k : ContrastKey} :
    k ∈ plannedKeys planned ↔
      ∃ direction, IsArm observations (k.workload, k.metric, direction) k.scheduler ∧
        Plans (groupOf observations (k.workload, k.metric, direction))
          (policiesOf observations (k.workload, k.metric, direction) k.scheduler) k.contrast
          k.policy := by
  obtain ⟨scenarios, hscenarios, rfl⟩ := map_eq_ok.1 h
  simp only [plannedKeys, List.mem_flatMap, List.mem_map]
  constructor
  · rintro ⟨scenario, hscenario, entry, hentry, rfl⟩
    obtain ⟨⟨key, bySched⟩, hkey, hok⟩ := (mem_traverse hscenarios).1 hscenario
    obtain ⟨-, rfl⟩ := (mem_group observations).1 ((List.mem_insertionSort _).1 hkey)
    obtain ⟨hcontrol, contrasts, hcontrasts, rfl⟩ := planGroup_eq_ok hok
    obtain ⟨entries, hentries, hentry⟩ := List.mem_flatten.1 hentry
    obtain ⟨⟨scheduler, arm⟩, harm, hok⟩ := (mem_traverse hcontrasts).1 hentries
    obtain ⟨hne, hoccurs, heq⟩ := mem_arms.1 harm
    have heq : arm = policiesOf observations key scheduler := heq
    subst heq
    obtain ⟨hplans, rfl⟩ := (planArm_entries hok).1 entry hentry
    exact ⟨key.2.2, ⟨hne, hoccurs, hcontrol⟩, hplans⟩
  · rintro ⟨direction, harm, hplans⟩
    obtain ⟨workload, metric, scheduler, contrast, policy⟩ := k
    obtain ⟨obs, hobs, hkey, hsched⟩ := harm.occurs
    have hentry : ((workload, metric, direction),
        schedulersOf observations (workload, metric, direction)) ∈
          (group observations).insertionSort SchedAnalysis.groupLe :=
      (List.mem_insertionSort _).2 ((mem_group observations).2 ⟨⟨obs, hobs, hkey⟩, rfl⟩)
    -- the plan has succeeded, so the group, and in it the arm, has an entry
    obtain ⟨scenario, hscenario⟩ := traverse_isOk.1 ⟨_, hscenarios⟩ _ hentry
    have hmem := (mem_traverse hscenarios).2 ⟨_, hentry, hscenario⟩
    obtain ⟨-, contrasts, hcontrasts, rfl⟩ := planGroup_eq_ok hscenario
    have harm' := mem_arms.2 ⟨harm.notControl, ⟨obs, hobs, hkey, hsched⟩,
      (rfl : (scheduler, policiesOf observations (workload, metric, direction) scheduler).2 = _)⟩
    obtain ⟨entries, hentries⟩ := traverse_isOk.1 ⟨_, hcontrasts⟩ _ harm'
    obtain ⟨entry, hentry, hkey⟩ := (planArm_entries hentries).2 contrast policy hplans
    refine ⟨_, hmem, entry, ?_, ?_⟩
    · exact List.mem_flatten.2 ⟨entries, (mem_traverse hcontrasts).2 ⟨_, harm', hentries⟩, hentry⟩
    · rw [hkey.scheduler, hkey.contrast, hkey.policy]
      rfl

end Planned

/-! ### The contrasts the analysis evaluates -/

section Evaluated

variable {maths : Maths ℚ} {settings : Settings ℚ} {g : ArmGroup ℚ} {scheduler : String}
  {arm : ByPolicy ℚ} {observations : List (Observation ℚ)} {items : List (Item Label ℚ)}
  {label : Label}

theorem mem_keys_of_ofPolicy {policy : Option String} (h : ofPolicy arm policy ≠ []) :
    policy ∈ arm.map Prod.fst := by
  rw [Dict.mem_keys_iff_lookup]
  rcases hlookup : arm.lookup policy with _ | values
  · rw [ofPolicy, hlookup] at h
    exact absurd rfl h
  · exact ⟨values, rfl⟩

/-- An evaluated comparison has enough blocks. -/
theorem label_policyItem {contrast : ContrastKind} {family : String} {policy : Option String}
    {controlValues armValues : List (String × ℚ)} {item : Item Label ℚ}
    (h : policyItem maths settings g scheduler contrast family policy controlValues armValues =
      .ok item) (hlabel : item.label? = some label) :
    label.contrast = contrast ∧ label.policy = policy ∧
      3 ≤ (sharedBlocks controlValues armValues).length := by
  rw [policyItem] at h
  split_ifs at h with hfew
  · cases h
    cases hlabel
  · obtain ⟨logs, -, h⟩ := bind_eq_ok.1 h
    rw [label?_evaluate h] at hlabel
    cases hlabel
    exact ⟨rfl, rfl, not_lt.1 hfew⟩

/-- Enough blocks are evaluated. -/
theorem exists_label_policyItem {contrast : ContrastKind} {family : String}
    {policy : Option String} {controlValues armValues : List (String × ℚ)} {item : Item Label ℚ}
    (h : policyItem maths settings g scheduler contrast family policy controlValues armValues =
      .ok item) (henough : 3 ≤ (sharedBlocks controlValues armValues).length) :
    ∃ found, item.label? = some found ∧ found.contrast = contrast ∧ found.policy = policy := by
  rw [policyItem] at h
  split_ifs at h with hfew
  · exact absurd henough (not_le.2 hfew)
  · obtain ⟨logs, -, h⟩ := bind_eq_ok.1 h
    exact ⟨_, label?_evaluate h, rfl, rfl⟩

theorem label_throttleItem {item : Item Label ℚ}
    (h : throttleItem maths settings g scheduler arm = .ok item)
    (hlabel : item.label? = some label) :
    label.contrast = .throttling ∧ label.policy = targetPolicy g.policies := by
  rw [throttleItem] at h
  split_ifs at h
  · cases h
    cases hlabel
  · obtain ⟨hcontrast, hpolicy, -⟩ := label_policyItem h hlabel
    exact ⟨hcontrast, hpolicy⟩

theorem label_schedulerItems (h : schedulerItems maths settings g scheduler arm = .ok items)
    {item : Item Label ℚ} (hitem : item ∈ items) (hlabel : item.label? = some label) :
    label.contrast = .performance ∧
      (label.policy = unlimited ∧ hasUnlimited g arm ∧
        3 ≤ (sharedBlocks (ofPolicy g.control unlimited) (ofPolicy arm unlimited)).length ∨
      g.policies.length ≤ 1 ∧ label.policy ∈ arm.map Prod.fst) := by
  rw [schedulerItems] at h
  split_ifs at h with hunlimited hpolicies
  · obtain ⟨item', hpolicy, rfl⟩ := map_eq_ok.1 h
    rw [List.mem_singleton.1 hitem] at hlabel
    obtain ⟨hcontrast, hpolicy, henough⟩ := label_policyItem hpolicy hlabel
    exact ⟨hcontrast, .inl ⟨hpolicy, hunlimited, henough⟩⟩
  · obtain ⟨entry, hentry, h⟩ := (mem_traverse h).1 hitem
    obtain ⟨hcontrast, hpolicy, -⟩ := label_policyItem h hlabel
    exact ⟨hcontrast, .inr ⟨hpolicies, hpolicy ▸
      List.mem_map_of_mem ((List.mem_insertionSort _).1 hentry)⟩⟩
  · cases h
    cases hitem

theorem label_interactionItems (h : interactionItems maths settings g scheduler arm = .ok items)
    {item : Item Label ℚ} (hitem : item ∈ items) (hlabel : item.label? = some label) :
    label.contrast = .performanceInteraction ∧ label.policy = none ∧
      hasInteraction g scheduler arm := by
  rw [interactionItems] at h
  dsimp only at h
  split_ifs at h with hinteraction
  · cases h
    rw [List.mem_singleton.1 hitem] at hlabel
    cases hlabel
  · obtain ⟨logs, -, h⟩ := bind_eq_ok.1 h
    obtain ⟨item', hevaluate, rfl⟩ := map_eq_ok.1 h
    rw [List.mem_singleton.1 hitem, label?_evaluate hevaluate] at hlabel
    cases hlabel
    exact ⟨rfl, rfl, hinteraction⟩
  · cases h
    cases hitem

/-- The plan enumerates what the analysis evaluates of an arm, the comparison without quota of a
control with both policies apart. -/
theorem plans_of_label (h : armItems maths settings g scheduler arm = .ok items)
    {item : Item Label ℚ} (hitem : item ∈ items) (hlabel : item.label? = some label) :
    Plans g arm label.contrast label.policy ∨
      (isThrottle g.metric = false ∧ planInteractions g ∧ label.contrast = .performance ∧
        label.policy = unlimited ∧ hasUnlimited g arm ∧
        3 ≤ (sharedBlocks (ofPolicy g.control unlimited) (ofPolicy arm unlimited)).length) := by
  rw [armItems] at h
  split_ifs at h with hthrottle
  · rw [Plans, if_pos hthrottle]
    obtain ⟨item', hitem', rfl⟩ := map_eq_ok.1 h
    obtain rfl := List.mem_singleton.1 hitem
    exact .inl (label_throttleItem hitem' hlabel)
  · rw [Plans, if_neg hthrottle]
    obtain ⟨scheduled, hscheduled, h⟩ := bind_eq_ok.1 h
    obtain ⟨interaction, hinteraction, rfl⟩ := map_eq_ok.1 h
    rcases List.mem_append.1 hitem with hitem | hitem
    · obtain ⟨hcontrast, ⟨hpolicy, hunlimited, henough⟩ | ⟨hpolicies, hpolicy⟩⟩ :=
        label_schedulerItems hscheduled hitem hlabel
      · by_cases hboth : planInteractions g
        · exact .inr ⟨Bool.eq_false_of_not_eq_true hthrottle, hboth, hcontrast, hpolicy,
            hunlimited, henough⟩
        · rw [if_neg hboth, hpolicy]
          exact .inl ⟨hcontrast, mem_keys_of_ofPolicy hunlimited.2.2⟩
      · have hboth : ¬ planInteractions g := fun hboth => by
          have := hboth.1
          omega
        rw [if_neg hboth]
        exact .inl ⟨hcontrast, hpolicy⟩
    · obtain ⟨hcontrast, hpolicy, -, hpolicies, ⟨hunlimited, hlimited⟩, ⟨hcu, hcl⟩, harm⟩ :=
        label_interactionItems hinteraction hitem hlabel
      rw [if_pos ⟨hpolicies, hunlimited, hlimited, hcu, hcl⟩]
      exact .inl ⟨⟨hcontrast, hpolicy⟩, harm⟩

/-- The comparison without quota is evaluated when there are enough blocks. -/
theorem exists_label_unlimited (h : armItems maths settings g scheduler arm = .ok items)
    (hthrottle : isThrottle g.metric = false) (hunlimited : hasUnlimited g arm)
    (henough : 3 ≤ (sharedBlocks (ofPolicy g.control unlimited)
      (ofPolicy arm unlimited)).length) :
    ∃ item ∈ items, ∃ found, item.label? = some found ∧ found.contrast = .performance ∧
      found.policy = unlimited := by
  rw [armItems, if_neg (by simp [hthrottle])] at h
  obtain ⟨scheduled, hscheduled, h⟩ := bind_eq_ok.1 h
  obtain ⟨interaction, -, rfl⟩ := map_eq_ok.1 h
  rw [schedulerItems, if_pos hunlimited] at hscheduled
  obtain ⟨item, hpolicy, rfl⟩ := map_eq_ok.1 hscheduled
  exact ⟨item, by simp, exists_label_policyItem hpolicy henough⟩

/-- **The contrasts of the analysis**: the items with a label that it forms for the arms. -/
theorem mem_evaluatedKeys {result : AnalysisResult Label ℚ}
    (h : analyse maths settings observations = .ok result) {k : ContrastKey} :
    k ∈ evaluatedKeys result ↔
      ∃ direction found, IsArm observations (k.workload, k.metric, direction) k.scheduler ∧
        armItems maths settings (groupOf observations (k.workload, k.metric, direction)) k.scheduler
          (policiesOf observations (k.workload, k.metric, direction) k.scheduler) = .ok found ∧
        ∃ item ∈ found, ∃ label, item.label? = some label ∧ label.contrast = k.contrast ∧
          label.policy = k.policy := by
  obtain ⟨items, hitems, h⟩ := bind_eq_ok.1 h
  obtain ⟨harms, hothers⟩ := mem_collect hitems
  obtain ⟨hlabels, -⟩ := conclude_reports (fun _ _ => length_holmDecisions) h
  rw [evaluatedKeys, List.mem_map]
  constructor
  · rintro ⟨v, hv, rfl⟩
    obtain ⟨item, hitem, hlabel⟩ := (hlabels v.label).1 (List.mem_map_of_mem hv)
    have hnames := names_of_label? hlabel
    rcases hothers item hitem with hnone | ⟨key, scheduler, found, harm, hfound, hmem⟩
    · rw [hnames] at hnone
      cases hnone
    · have hnames' := names_armItems hfound hmem
      rw [hnames] at hnames'
      obtain ⟨workload, metric, direction⟩ := key
      obtain ⟨hworkload, hrest⟩ := Prod.mk.inj hnames'
      obtain ⟨hmetric, hscheduler⟩ := Prod.mk.inj hrest
      cases hworkload
      cases hmetric
      cases Option.some.inj hscheduler
      exact ⟨direction, found, harm, hfound, item, hmem, v.label, hlabel, rfl, rfl⟩
  · rintro ⟨direction, found, harm, hfound, item, hmem, label, hlabel, hcontrast, hpolicy⟩
    obtain ⟨found', hfound', hsub⟩ := harms _ _ harm
    cases hfound.symm.trans hfound'
    obtain ⟨v, hv, rfl⟩ := List.mem_map.1 ((hlabels label).2 ⟨item, hsub hmem, hlabel⟩)
    have hnames := (names_of_label? hlabel).symm.trans (names_armItems hfound hmem)
    obtain ⟨hworkload, hrest⟩ := Prod.mk.inj hnames
    obtain ⟨hmetric, hscheduler⟩ := Prod.mk.inj hrest
    obtain ⟨workload, metric, scheduler, contrast, policy⟩ := k
    exact ⟨v, hv, ContrastKey.mk.injEq .. |>.mpr
      ⟨hworkload, hmetric, Option.some.inj hscheduler, hcontrast, hpolicy⟩⟩

end Evaluated

/-! ### The plan against the analysis -/

section Coverage

/-- The control was measured under both policies. -/
def ControlHasBoth (observations : List (Observation ℚ)) (key : GroupKey) : Prop :=
  MeasuredUnlimited observations key controlScheduler ∧
    ∃ c ∈ observations, c.key = key ∧ c.scheduler = controlScheduler ∧ c.policy = limited

/-- An arm whose comparison without quota the plan has no entry for: the control has both policies,
so that the plan turns to the quota interaction. -/
structure Dropped (observations : List (Observation ℚ)) (key : GroupKey) (scheduler : String) :
    Prop where
  arm : IsArm observations key scheduler
  performance : isThrottle key.2.1 = false
  both : ControlHasBoth observations key
  enough : 3 ≤ (sharedBlocks (blocksOf observations key controlScheduler unlimited)
    (blocksOf observations key scheduler unlimited)).length

/-- A group in which the plan sizes the comparison without quota. -/
structure Sized (observations : List (Observation ℚ)) (key : GroupKey) (scheduler : String) :
    Prop where
  arm : IsArm observations key scheduler
  notBoth : ¬ ControlHasBoth observations key
  measured : MeasuredUnlimited observations key scheduler

variable {maths : Maths ℚ} {settings : Settings ℚ} {observations : List (Observation ℚ)}
  {key : GroupKey} {scheduler : String}

theorem planInteractions_iff :
    planInteractions (groupOf observations key) ↔ ControlHasBoth observations key := by
  have hkeys : ∀ policy, policy ∈ (groupOf observations key).control.map Prod.fst ↔
      ∃ c ∈ observations, c.key = key ∧ c.scheduler = controlScheduler ∧ c.policy = policy :=
    fun policy => mem_keys_policiesOf observations
  rw [planInteractions, hkeys, hkeys]
  constructor
  · rintro ⟨-, -, -, hboth⟩
    exact hboth
  · rintro ⟨⟨c, hc, hck, hcs, hcp⟩, c', hc', hck', hcs', hcp'⟩
    refine ⟨?_, mem_policies.2 ⟨c, hc, hck, hcp⟩, mem_policies.2 ⟨c', hc', hck', hcp'⟩,
      ⟨c, hc, hck, hcs, hcp⟩, c', hc', hck', hcs', hcp'⟩
    by_contra hfew
    have hsame := length_policies_le_one_iff.1 (by omega) c hc c' hc' hck hck'
    rw [hcp, hcp'] at hsame
    exact absurd hsame (by decide)

/-- The blocks that the comparison without quota is over. -/
theorem ofPolicy_unlimited :
    sharedBlocks (ofPolicy (groupOf observations key).control unlimited)
        (ofPolicy (policiesOf observations key scheduler) unlimited) =
      sharedBlocks (blocksOf observations key controlScheduler unlimited)
        (blocksOf observations key scheduler unlimited) := by
  have hcontrol : ofPolicy (groupOf observations key).control unlimited =
      blocksOf observations key controlScheduler unlimited := lookup_policiesOf observations
  have harm : ofPolicy (policiesOf observations key scheduler) unlimited =
      blocksOf observations key scheduler unlimited := lookup_policiesOf observations
  rw [hcontrol, harm]

/-- A shared block is measured on both sides. -/
theorem hasUnlimited_of_enough
    (h : 3 ≤ (sharedBlocks (blocksOf observations key controlScheduler unlimited)
      (blocksOf observations key scheduler unlimited)).length) :
    hasUnlimited (groupOf observations key) (policiesOf observations key scheduler) := by
  obtain ⟨block, hblock⟩ := List.exists_mem_of_length_pos (by omega : 0 < (sharedBlocks
    (blocksOf observations key controlScheduler unlimited)
    (blocksOf observations key scheduler unlimited)).length)
  obtain ⟨hcontrol, harm⟩ := mem_sharedBlocks.1 hblock
  obtain ⟨c, hc, hck, hcs, hcp, -⟩ := (mem_keys_blocksOf observations).1 hcontrol
  obtain ⟨a, ha, hak, has, hap, -⟩ := (mem_keys_blocksOf observations).1 harm
  exact hasUnlimited_iff.2 ⟨⟨c, hc, hck, hcs, hcp⟩, ⟨a, ha, hak, has, hap⟩⟩

/-- The plan has an entry for a comparison without quota in the groups that size it. -/
theorem sized_iff (hthrottle : isThrottle key.2.1 = false) :
    Sized observations key scheduler ↔ IsArm observations key scheduler ∧
      Plans (groupOf observations key) (policiesOf observations key scheduler) .performance
        unlimited := by
  have hnot : ¬ isThrottle (groupOf observations key).metric = true := by
    rw [show (groupOf observations key).metric = key.2.1 from rfl, hthrottle]
    exact Bool.false_ne_true
  rw [Plans, if_neg hnot]
  constructor
  · rintro ⟨harm, hboth, hmeasured⟩
    rw [if_neg (mt planInteractions_iff.1 hboth)]
    exact ⟨harm, rfl, (mem_keys_policiesOf observations).2 hmeasured⟩
  · rintro ⟨harm, hplans⟩
    split_ifs at hplans with hboth
    · cases hplans.1.1
    · exact ⟨harm, mt planInteractions_iff.2 hboth,
        (mem_keys_policiesOf observations).1 hplans.2⟩

/-- **When the plan sizes every evaluated contrast**: no arm compared without quota over enough
blocks lies in a group whose control has both policies, unless a group of another direction sizes
the comparison. -/
theorem plan_covers_iff {result : AnalysisResult Label ℚ} {planned : Plan}
    (h : analyse maths settings observations = .ok result)
    (hp : plan maths observations = .ok planned) :
    (∀ k ∈ evaluatedKeys result, k ∈ plannedKeys planned) ↔
      ∀ key scheduler, Dropped observations key scheduler →
        ∃ direction, Sized observations (key.1, key.2.1, direction) scheduler := by
  constructor
  · rintro hsub ⟨workload, metric, direction⟩ scheduler ⟨harm, hthrottle, -, henough⟩
    obtain ⟨items, hitems, -⟩ := bind_eq_ok.1 h
    obtain ⟨found, hfound, -⟩ := (mem_collect hitems).1 _ _ harm
    obtain ⟨item, hitem, label, hlabel, hcontrast, hpolicy⟩ := exists_label_unlimited hfound
      hthrottle (hasUnlimited_of_enough henough) (ofPolicy_unlimited ▸ henough)
    have hmem := hsub ⟨workload, metric, scheduler, .performance, unlimited⟩
      ((mem_evaluatedKeys h).2
        ⟨direction, found, harm, hfound, item, hitem, label, hlabel, hcontrast, hpolicy⟩)
    obtain ⟨direction', hplanned⟩ := (mem_plannedKeys hp).1 hmem
    have hthrottle' : isThrottle (workload, metric, direction').2.1 = false := hthrottle
    exact ⟨direction', (sized_iff hthrottle').2 hplanned⟩
  · intro hsized k hk
    obtain ⟨direction, found, harm, hfound, item, hitem, label, hlabel, hcontrast, hpolicy⟩ :=
      (mem_evaluatedKeys h).1 hk
    rw [mem_plannedKeys hp]
    rcases plans_of_label hfound hitem hlabel with
      hplans | ⟨hthrottle, hboth, hperformance, hunlimited, -, henough⟩
    · rw [hcontrast, hpolicy] at hplans
      exact ⟨direction, harm, hplans⟩
    · rw [ofPolicy_unlimited] at henough
      have hdropped : Dropped observations (k.workload, k.metric, direction) k.scheduler :=
        ⟨harm, hthrottle, planInteractions_iff.1 hboth, henough⟩
      obtain ⟨direction', hsized⟩ := hsized _ _ hdropped
      have hthrottle' : isThrottle (k.workload, k.metric, direction').2.1 = false := hthrottle
      rw [← hcontrast, ← hpolicy, hperformance, hunlimited]
      exact ⟨direction', (sized_iff hthrottle').1 hsized⟩

end Coverage

/-! ### A pilot of both policies -/

/-- The control and an arm under both policies. -/
def bothPolicies : List (Observation ℚ) :=
  ["eevdf", "scx_lavd"].flatMap fun scheduler =>
    FactorialAnalysis.threeBlocks scheduler unlimited ++
      FactorialAnalysis.threeBlocks scheduler limited

/-- What both programs make of them. -/
theorem both_bothPolicies :
    (∃ result, analyse roughMaths shortRun bothPolicies = .ok result ∧
      evaluatedKeys result =
        [⟨"hackbench", "throughput", "scx_lavd", .performance, unlimited⟩,
          ⟨"hackbench", "throughput", "scx_lavd", .performanceInteraction, none⟩]) ∧
    ∃ planned, plan roughMaths bothPolicies = .ok planned ∧
      plannedKeys planned =
        [⟨"hackbench", "throughput", "scx_lavd", .performanceInteraction, none⟩] := by
  have hkeys : (analyse roughMaths shortRun bothPolicies).map evaluatedKeys = .ok
      [⟨"hackbench", "throughput", "scx_lavd", .performance, unlimited⟩,
        ⟨"hackbench", "throughput", "scx_lavd", .performanceInteraction, none⟩] := by
    decide +kernel
  have hplanned : (plan roughMaths bothPolicies).map plannedKeys = .ok
      [⟨"hackbench", "throughput", "scx_lavd", .performanceInteraction, none⟩] := by
    decide +kernel
  obtain ⟨result, hresult, hkeys⟩ := map_eq_ok.1 hkeys
  obtain ⟨planned, hplan, hplanned⟩ := map_eq_ok.1 hplanned
  exact ⟨⟨result, hresult, hkeys⟩, planned, hplan, hplanned⟩

/-- What the criterion says about them: the comparison without quota is dropped. -/
theorem plan_covers_iff_bothPolicies :
    ¬ ∀ key scheduler, Dropped bothPolicies key scheduler →
      ∃ direction, Sized bothPolicies (key.1, key.2.1, direction) scheduler := by
  obtain ⟨⟨result, hresult, hkeys⟩, planned, hplan, hplanned⟩ := both_bothPolicies
  intro hsized
  have hcovered := (plan_covers_iff hresult hplan).2 hsized
  rw [hkeys, hplanned] at hcovered
  exact absurd (hcovered _ List.mem_cons_self) (by decide)

/-- **A contrast without a size.**  Under both policies the analysis decides the comparison without
quota and the quota interaction; the plan sizes the interaction alone. -/
theorem plan_misses_unlimited :
    ∃ result planned, analyse roughMaths shortRun bothPolicies = .ok result ∧
      plan roughMaths bothPolicies = .ok planned ∧
      ∃ k ∈ evaluatedKeys result, k ∉ plannedKeys planned := by
  obtain ⟨⟨result, hresult, hkeys⟩, planned, hplan, hplanned⟩ := both_bothPolicies
  refine ⟨result, planned, hresult, hplan, _, hkeys ▸ List.mem_cons_self, ?_⟩
  rw [hplanned]
  decide

end FactorialSampleSize

end LinuxSched

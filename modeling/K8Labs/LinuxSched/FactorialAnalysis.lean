import K8Labs.LinuxSched.SchedAnalysis
import K8Labs.Python.Str

/-!
# The factorial analysis

`research/linux-sched/analysis/factorial_analysis.py`: schedulers crossed with two CPU-quota
policies.  `analyse` files the observations under workload, metric and direction, then scheduler,
policy and block, states for every arm its scheduler contrasts and its quota interaction
(`collect`), and lets two step-downs in each planned family decide (`holmDecisions`).

* `groupObservations_cases`: the grouping accepts the lists in which no place is taken twice.
* `armItems_eq_nil_iff`: the arms that leave no trace in the loop.
* `analyse_covers_iff`: **no arm vanishes exactly when every one has a group that reports it.**
-/

namespace LinuxSched

namespace FactorialAnalysis

open Py

/-! ### Constants -/

/-- `CONTROL_SCHEDULER`. -/
def controlScheduler : String := "eevdf"

/-- `MIN_BLOCKS_FOR_VERDICT`. -/
def minBlocksForVerdict : ℕ := 3

/-- `FAMILY_SCHEDULER_UNLIMITED`. -/
def familySchedulerUnlimited : String := "scheduler_unlimited"

/-- `FAMILY_QUOTA_INTERACTION`. -/
def familyQuotaInteraction : String := "quota_interaction"

/-- `FAMILY_THROTTLING`. -/
def familyThrottling : String := "throttling"

/-- `FAMILY_SIZES`. -/
def familySizes : List (String × ℕ) :=
  [(familySchedulerUnlimited, 25), (familyQuotaInteraction, 10), (familyThrottling, 20)]

/-- `PERFORMANCE_POLICIES`. -/
def unlimited : Option String := some "unlimited"

@[inherit_doc unlimited]
def limited : Option String := some "limited"

/-- `QUOTA_CAPABLE_SCHEDULERS`. -/
def quotaCapableSchedulers : List String := ["scx_lavd", "scx_mavd"]

/-- `LOWER_IS_BETTER`. -/
def lowerIsBetter : List String :=
  ["latency_p99_ms", "latency_p50_ms", "submit_to_scheduled_p99_ms", "runqlat_p99_us",
    "runqlen_p99", "throttled_period_ratio", "throttled_usec", "throttled_time_ms",
    "throttled_time_us"]

/-- The metrics of `PRACTICAL_EFFECT_BY_METRIC`. -/
def throttleMetrics : List String :=
  ["throttled_period_ratio", "throttled_usec", "throttled_time_ms", "throttled_time_us",
    "throttled_time"]

/-- `s.lower()`.  No character outside ASCII has a letter of the names below as its lower case. -/
def lower (s : String) : String := String.ofList (s.toList.map Char.toLower)

/-- `honours_quota`. -/
def honoursQuota (scheduler : String) : Bool :=
  let name := lower (strip scheduler)
  name ∈ quotaCapableSchedulers ∨ name ∈ ["lavd", "mavd"]

/-- `"throttl" in metric.lower()`. -/
def isThrottle (metric : String) : Bool := "throttl".toList <:+: (lower metric).toList

/-- `is_descriptive`: no workload is. -/
def isDescriptive (_workload : String) : Bool := false

variable {K : Type} [Field K]

/-- `practical_effect`. -/
def practicalEffect (metric : String) : K :=
  if metric ∈ throttleMetrics then 1 / 10
  else if isThrottle metric then 1 / 10
  else 1 / 20

/-! ### Observations -/

/-- `Observation`. -/
structure Observation (K : Type) where
  blockId : String
  workload : String
  metric : String
  scheduler : String
  value : K
  direction : Option String
  policy : Option String

/-- The `contrast` of a verdict. -/
inductive ContrastKind where
  | performance
  | throttling
  | performanceInteraction
  deriving DecidableEq

/-- What names a contrast in a `Verdict`. -/
structure Label where
  workload : String
  metric : String
  scheduler : String
  contrast : ContrastKind
  policy : Option String
  family : String
  deriving DecidableEq

/-- The key of `grouped`: workload, metric and direction. -/
abbrev GroupKey := String × String × Option String

/-- The values of a scheduler: per policy the value of each block. -/
abbrev ByPolicy (K : Type) := List (Option String × List (String × K))

/-- The groups: per key, per scheduler. -/
abbrev Grouped (K : Type) := List (GroupKey × List (String × ByPolicy K))

section Grouping

omit [Field K]

/-- The key of an observation. -/
def Observation.key (obs : Observation K) : GroupKey := (obs.workload, obs.metric, obs.direction)

/-- The measured cell: where `grouped` has room for one value. -/
def Observation.cell (obs : Observation K) : GroupKey × String × Option String × String :=
  (obs.key, obs.scheduler, obs.policy, obs.blockId)

/-- `per_policy[obs.block_id] = obs.value`. -/
def filePolicy (byPolicy : ByPolicy K) (obs : Observation K) : ByPolicy K :=
  Dict.setdefault obs.policy (Dict.update obs.blockId fun _ => obs.value) byPolicy

/-- The same, for the dictionary of the schedulers. -/
def fileScheduler (bySched : List (String × ByPolicy K)) (obs : Observation K) :
    List (String × ByPolicy K) :=
  Dict.setdefault obs.scheduler (filePolicy · obs) bySched

/-- One assignment of `_group_observations`. -/
def place (grouped : Grouped K) (obs : Observation K) : Grouped K :=
  Dict.setdefault obs.key (fileScheduler · obs) grouped

/-- `per_policy` for an observation. -/
def perPolicy (grouped : Grouped K) (obs : Observation K) : List (String × K) :=
  (((((grouped.lookup obs.key).getD []).lookup obs.scheduler).getD []).lookup obs.policy).getD []

/-- `repr` of a policy. -/
def quotedPolicy : Option String → String
  | some policy => quoted policy
  | none => "None"

/-- The text of the error. -/
def duplicateMessage (obs : Observation K) : String :=
  "duplicate observation for block=" ++ quoted obs.blockId ++ " scheduler=" ++
    quoted obs.scheduler ++ " metric=" ++ quoted obs.metric ++ " policy=" ++
    quotedPolicy obs.policy

/-- `_group_observations`. -/
def groupObservations (observations : List (Observation K)) : Except Exc (Grouped K) :=
  fold (fun grouped obs =>
    if obs.blockId ∈ (perPolicy grouped obs).map Prod.fst then
      .error ⟨.valueError, duplicateMessage obs⟩
    else .ok (place grouped obs)) [] observations

/-- The groups when every observation is filed. -/
def group (observations : List (Observation K)) : Grouped K := observations.foldl place []

/-- What is filed for a key. -/
def schedulersOf (observations : List (Observation K)) (key : GroupKey) :
    List (String × ByPolicy K) :=
  Dict.group Observation.scheduler filePolicy (Dict.share Observation.key observations key)

/-- What is filed for a key and a scheduler. -/
def policiesOf (observations : List (Observation K)) (key : GroupKey) (scheduler : String) :
    ByPolicy K :=
  Dict.group Observation.policy (fun d obs => Dict.update obs.blockId (fun _ => obs.value) d)
    (Dict.share Observation.scheduler (Dict.share Observation.key observations key) scheduler)

/-- What is filed for a key, a scheduler and a policy. -/
def blocksOf (observations : List (Observation K)) (key : GroupKey) (scheduler : String)
    (policy : Option String) : List (String × K) :=
  Dict.index Observation.blockId Observation.value
    (Dict.share Observation.policy (Dict.share Observation.scheduler
      (Dict.share Observation.key observations key) scheduler) policy)

variable (observations : List (Observation K)) {key : GroupKey} {scheduler : String}
  {policy : Option String}

theorem mem_group {bySched : List (String × ByPolicy K)} :
    (key, bySched) ∈ group observations ↔
      (∃ obs ∈ observations, obs.key = key) ∧ bySched = schedulersOf observations key :=
  Dict.mem_group

theorem mem_schedulersOf {byPolicy : ByPolicy K} :
    (scheduler, byPolicy) ∈ schedulersOf observations key ↔
      (∃ obs ∈ observations, obs.key = key ∧ obs.scheduler = scheduler) ∧
        byPolicy = policiesOf observations key scheduler := by
  rw [schedulersOf, Dict.mem_group]
  simp only [Dict.mem_share, and_assoc]
  rfl

theorem lookup_schedulersOf :
    ((schedulersOf observations key).lookup scheduler).getD [] =
      policiesOf observations key scheduler :=
  Dict.getD_lookup_group

theorem mem_keys_policiesOf :
    policy ∈ (policiesOf observations key scheduler).map Prod.fst ↔
      ∃ obs ∈ observations, obs.key = key ∧ obs.scheduler = scheduler ∧ obs.policy = policy := by
  rw [policiesOf, Dict.mem_keys_group]
  simp only [Dict.mem_share, and_assoc]

theorem lookup_policiesOf :
    ((policiesOf observations key scheduler).lookup policy).getD [] =
      blocksOf observations key scheduler policy :=
  Dict.getD_lookup_group

theorem mem_policiesOf {blocks : List (String × K)} :
    (policy, blocks) ∈ policiesOf observations key scheduler ↔
      (∃ obs ∈ observations, obs.key = key ∧ obs.scheduler = scheduler ∧ obs.policy = policy) ∧
        blocks = blocksOf observations key scheduler policy := by
  rw [policiesOf, Dict.mem_group]
  simp only [Dict.mem_share, and_assoc]
  rfl

theorem mem_keys_blocksOf {block : String} :
    block ∈ (blocksOf observations key scheduler policy).map Prod.fst ↔
      ∃ obs ∈ observations, obs.key = key ∧ obs.scheduler = scheduler ∧ obs.policy = policy ∧
        obs.blockId = block := by
  rw [blocksOf, Dict.mem_keys_index]
  simp only [Dict.mem_share, and_assoc]

/-- A place is taken when the cell came before. -/
theorem taken_iff (obs : Observation K) :
    obs.blockId ∈ (perPolicy (group observations) obs).map Prod.fst ↔
      ∃ earlier ∈ observations, earlier.cell = obs.cell := by
  have hkey : ((group observations).lookup obs.key).getD [] = schedulersOf observations obs.key :=
    Dict.getD_lookup_group
  rw [perPolicy, hkey, lookup_schedulersOf, lookup_policiesOf, mem_keys_blocksOf]
  simp [Observation.cell]

/-- **The grouping accepts what has no duplicates.** -/
theorem groupObservations_cases :
    ((observations.map Observation.cell).Nodup ∧
      groupObservations observations = .ok (group observations)) ∨
    (¬ (observations.map Observation.cell).Nodup ∧
      ∃ obs ∈ observations,
        groupObservations observations = .error ⟨.valueError, duplicateMessage obs⟩) :=
  Dict.fold_fresh Observation.cell taken_iff observations

end Grouping

/-! ### The first pass -/

/-- `_policies_present`. -/
def policiesPresent (bySched : List (String × ByPolicy K)) : List (Option String) :=
  (bySched.flatMap fun arm => arm.2.map Prod.fst).dedup

/-- The order of `sorted(..., key=lambda x: (x is None, x))`. -/
def policyLe : Option String → Option String → Prop
  | some a, some b => a ≤ b
  | some _, none => True
  | none, some _ => False
  | none, none => True

instance : DecidableRel policyLe
  | some a, some b => inferInstanceAs (Decidable (a ≤ b))
  | some _, none => .isTrue trivial
  | none, some _ => .isFalse id
  | none, none => .isTrue trivial

/-- `d.get(policy, {})`. -/
def ofPolicy (byPolicy : ByPolicy K) (policy : Option String) : List (String × K) :=
  (byPolicy.lookup policy).getD []

/-- `_interaction_blocks`. -/
def interactionBlocks (control arm : ByPolicy K) : List String :=
  if unlimited ∈ control.map Prod.fst ∧ limited ∈ control.map Prod.fst ∧
      unlimited ∈ arm.map Prod.fst ∧ limited ∈ arm.map Prod.fst then
    ((((ofPolicy control unlimited).map Prod.fst).filter fun block =>
      block ∈ (ofPolicy control limited).map Prod.fst ∧
      block ∈ (ofPolicy arm unlimited).map Prod.fst ∧
      block ∈ (ofPolicy arm limited).map Prod.fst)).insertionSort (· ≤ ·)
  else []

section Analyse

variable [LinearOrder K] (maths : Maths K) (settings : Settings K)

/-- The log ratios of an arm over some blocks. -/
def logRatios (lowerBetter : Bool) (control arm : List (String × K)) (blocks : List String) :
    Except Exc (List K) :=
  Py.traverse (fun block => orientedLogRatio maths ((control.lookup block).getD 0)
    ((arm.lookup block).getD 0) lowerBetter) blocks

/-- The entry for too few blocks. -/
def tooFew (workload metric scheduler : String) (shared : List String) : Item Label K :=
  .skipped
    { workload := workload
      metric := metric
      scheduler := some scheduler
      reason := "fewer than " ++ toString minBlocksForVerdict ++ " paired blocks"
      sharedBlocks := some shared.length }

/-- The group an arm is compared in. -/
structure ArmGroup (K : Type) where
  workload : String
  metric : String
  direction : Option String
  policies : List (Option String)
  control : ByPolicy K

variable (g : ArmGroup K) (scheduler : String) (arm : ByPolicy K)

/-- The comparison of an arm with the control under one policy. -/
def policyItem (contrast : ContrastKind) (family : String) (policy : Option String)
    (controlValues armValues : List (String × K)) : Except Exc (Item Label K) :=
  let shared := sharedBlocks controlValues armValues
  if shared.length < minBlocksForVerdict then .ok (tooFew g.workload g.metric scheduler shared)
  else
    (logRatios maths (isLowerBetter lowerIsBetter g.metric g.direction) controlValues armValues
      shared).bind fun logs =>
    evaluate maths settings
      { workload := g.workload
        metric := g.metric
        scheduler := scheduler
        contrast := contrast
        policy := policy
        family := family }
      g.workload g.metric logs (practicalEffect g.metric) (isDescriptive g.workload)

/-- `target_policy`. -/
def targetPolicy (policies : List (Option String)) : Option String :=
  if limited ∈ policies then limited else (policies.insertionSort policyLe).head?.join

/-- Throttling: only arms that can enforce cpu.max can show an effect. -/
def throttleItem : Except Exc (Item Label K) :=
  if honoursQuota scheduler = false then
    .ok (.skipped
      { workload := g.workload
        metric := g.metric
        scheduler := some scheduler
        reason := "scheduler cannot honour cpu.max"
        sharedBlocks := none })
  else
    let policy := targetPolicy g.policies
    policyItem maths settings g scheduler .throttling familyThrottling policy
      (ofPolicy g.control policy) (ofPolicy arm policy)

/-- The arm and the control have values under no quota. -/
def hasUnlimited : Prop :=
  unlimited ∈ g.policies ∧ ofPolicy g.control unlimited ≠ [] ∧ ofPolicy arm unlimited ≠ []

instance : Decidable (hasUnlimited g arm) :=
  decidable_of_iff (unlimited ∈ g.policies ∧ (ofPolicy g.control unlimited).isEmpty = false ∧
    (ofPolicy arm unlimited).isEmpty = false) (by simp [hasUnlimited])

/-- The scheduler comparisons: under no quota, or one per policy of single-policy data. -/
def schedulerItems : Except Exc (List (Item Label K)) :=
  if hasUnlimited g arm then
    (policyItem maths settings g scheduler .performance familySchedulerUnlimited unlimited
      (ofPolicy g.control unlimited) (ofPolicy arm unlimited)).map fun item => [item]
  else if g.policies.length ≤ 1 then
    Py.traverse (fun entry => policyItem maths settings g scheduler .performance
        familySchedulerUnlimited entry.1 (ofPolicy g.control entry.1) entry.2)
      (arm.insertionSort fun a b => policyLe a.1 b.1)
  else .ok []

/-- The arm and the control have both policies. -/
def hasInteraction : Prop :=
  honoursQuota scheduler = true ∧ 2 ≤ g.policies.length ∧
    (unlimited ∈ g.policies ∧ limited ∈ g.policies) ∧
    (unlimited ∈ g.control.map Prod.fst ∧ limited ∈ g.control.map Prod.fst) ∧
    unlimited ∈ arm.map Prod.fst ∧ limited ∈ arm.map Prod.fst

instance : Decidable (hasInteraction g scheduler arm) := inferInstanceAs (Decidable (_ ∧ _))

/-- The quota interaction. -/
def interactionItems : Except Exc (List (Item Label K)) :=
  if hasInteraction g scheduler arm then
    let blocks := interactionBlocks g.control arm
    if blocks.length < minBlocksForVerdict then
      .ok [tooFew g.workload g.metric scheduler blocks]
    else
      (Py.traverse (fun block =>
        (orientedLogRatio maths (((ofPolicy g.control unlimited).lookup block).getD 0)
          (((ofPolicy arm unlimited).lookup block).getD 0)
          (isLowerBetter lowerIsBetter g.metric g.direction)).bind fun rUnlim =>
        (orientedLogRatio maths (((ofPolicy g.control limited).lookup block).getD 0)
          (((ofPolicy arm limited).lookup block).getD 0)
          (isLowerBetter lowerIsBetter g.metric g.direction)).map fun rLim => rLim - rUnlim)
        blocks).bind fun logs =>
      (evaluate maths settings
        { workload := g.workload
          metric := g.metric
          scheduler := scheduler
          contrast := .performanceInteraction
          policy := none
          family := familyQuotaInteraction }
        g.workload g.metric logs (practicalEffect g.metric) (isDescriptive g.workload)).map
      fun item => [item]
  else .ok []

/-- The loop body for an arm. -/
def armItems : Except Exc (List (Item Label K)) :=
  if isThrottle g.metric = true then
    (throttleItem maths settings g scheduler arm).map fun item => [item]
  else
    (schedulerItems maths settings g scheduler arm).bind fun scheduled =>
      (interactionItems maths settings g scheduler arm).map fun interaction =>
        scheduled ++ interaction

/-- The arms of a group, in the order of the loop. -/
def arms (bySched : List (String × ByPolicy K)) : List (String × ByPolicy K) :=
  (bySched.insertionSort keyLe).filter fun arm => arm.1 ≠ controlScheduler

/-- The loop body for a group. -/
def groupItems (entry : GroupKey × List (String × ByPolicy K)) :
    Except Exc (List (Item Label K)) :=
  let (workload, metric, direction) := entry.1
  let control := (entry.2.lookup controlScheduler).getD []
  if control.isEmpty then
    .ok [.skipped
      { workload := workload
        metric := metric
        scheduler := none
        reason := "no control arm"
        sharedBlocks := none }]
  else
    let g : ArmGroup K :=
      { workload := workload
        metric := metric
        direction := direction
        policies := policiesPresent entry.2
        control := control }
    (Py.traverse (fun arm => armItems maths settings g arm.1 arm.2) (arms entry.2)).map List.flatten

/-- `analyse` up to the end of the first pass. -/
def collect (observations : List (Observation K)) : Except Exc (List (Item Label K)) :=
  (groupObservations observations).bind fun grouped =>
    (Py.traverse (groupItems maths settings) (grouped.insertionSort SchedAnalysis.groupLe)).map
      List.flatten

end Analyse

/-! ### The second pass -/

section Decide

variable [LinearOrder K] (maths : Maths K) (settings : Settings K)

/-- `families`: the positions of the tested contrasts, by family. -/
def families (tested : List (Comparison Label K)) : List (String × List ℕ) :=
  tested.zipIdx.foldl (fun d entry =>
    Dict.update entry.1.label.family (fun old => old.getD [] ++ [entry.2]) d) []

/-- The members of a family. -/
def members (tested : List (Comparison Label K)) (positions : List ℕ) :
    List (Comparison Label K) :=
  positions.filterMap fun position => tested[position]?

/-- The two step-downs of a family, with their results put back. -/
def decideFamily (alpha : K) (tested : List (Comparison Label K)) (results : List (Bool × Bool))
    (entry : String × List ℕ) : Except Exc (List (Bool × Bool)) :=
  let family := members tested entry.2
  let dfs := family.map Comparison.df
  let size := (familySizes.lookup entry.1).getD entry.2.length
  (holmStepDown (tPpf maths) (family.map noEffectScore) dfs alpha 2 (some size)).bind
    fun noEffect =>
      (holmStepDown (tPpf maths) (family.map tostScore) dfs alpha 1 (some size)).map
      fun equivalent => (entry.2.zip (noEffect.zip equivalent)).foldl
        (fun results entry => results.set entry.1 entry.2) results

/-- `holm_decisions`. -/
def holmDecisions (alpha : K) (comparisons : List (Comparison Label K)) :
    Except Exc (List Decision) :=
  let tested := comparisons.filter isTested
  if tested.isEmpty then .ok (decisions maths comparisons [])
  else
    (fold (decideFamily maths alpha tested) (List.replicate tested.length (false, false))
      (families tested)).map fun results => decisions maths comparisons results

/-- `analyse`. -/
def analyse (observations : List (Observation K)) : Except Exc (AnalysisResult Label K) :=
  (collect maths settings observations).bind
    (conclude maths (holmDecisions maths settings.alpha) settings.alpha)

end Decide

/-! ### What the first pass leaves of an arm -/

section Trace

variable [LinearOrder K] {maths : Maths K} {settings : Settings K} {g : ArmGroup K}
  {scheduler : String} {arm : ByPolicy K} {item : Item Label K} {items : List (Item Label K)}

omit [Field K] [LinearOrder K] in
/-- The workload, the metric and the scheduler an item names. -/
def names : Item Label K → String × String × Option String
  | .skipped entry => (entry.workload, entry.metric, entry.scheduler)
  | .incomplete verdict =>
    (verdict.label.workload, verdict.label.metric, some verdict.label.scheduler)
  | .tested entry _ => (entry.label.workload, entry.label.metric, some entry.label.scheduler)

omit [Field K] [LinearOrder K] in
theorem names_of_label? {label : Label} (h : item.label? = some label) :
    names item = (label.workload, label.metric, some label.scheduler) := by
  cases item with
  | skipped entry => cases h
  | incomplete verdict =>
    cases h
    rfl
  | tested entry boot =>
    cases h
    rfl

theorem names_policyItem {contrast : ContrastKind} {family : String} {policy : Option String}
    {controlValues armValues : List (String × K)}
    (h : policyItem maths settings g scheduler contrast family policy controlValues armValues =
      .ok item) : names item = (g.workload, g.metric, some scheduler) := by
  rw [policyItem] at h
  split_ifs at h
  · cases h
    rfl
  · obtain ⟨logs, -, h⟩ := bind_eq_ok.1 h
    rw [names_of_label? (label?_evaluate h)]

theorem names_throttleItem (h : throttleItem maths settings g scheduler arm = .ok item) :
    names item = (g.workload, g.metric, some scheduler) := by
  rw [throttleItem] at h
  split_ifs at h
  · cases h
    rfl
  · exact names_policyItem h

theorem names_schedulerItems (h : schedulerItems maths settings g scheduler arm = .ok items)
    (hitem : item ∈ items) : names item = (g.workload, g.metric, some scheduler) := by
  rw [schedulerItems] at h
  split_ifs at h
  · obtain ⟨item', hpolicy, rfl⟩ := map_eq_ok.1 h
    rw [List.mem_singleton.1 hitem]
    exact names_policyItem hpolicy
  · obtain ⟨entry, -, h⟩ := (mem_traverse h).1 hitem
    exact names_policyItem h
  · cases h
    cases hitem

theorem names_interactionItems (h : interactionItems maths settings g scheduler arm = .ok items)
    (hitem : item ∈ items) : names item = (g.workload, g.metric, some scheduler) := by
  rw [interactionItems] at h
  dsimp only at h
  split_ifs at h
  · cases h
    rw [List.mem_singleton.1 hitem]
    rfl
  · obtain ⟨logs, -, h⟩ := bind_eq_ok.1 h
    obtain ⟨item', hevaluate, rfl⟩ := map_eq_ok.1 h
    rw [List.mem_singleton.1 hitem, names_of_label? (label?_evaluate hevaluate)]
  · cases h
    cases hitem

/-- Whatever the loop body appends for an arm names the arm. -/
theorem names_armItems (h : armItems maths settings g scheduler arm = .ok items)
    (hitem : item ∈ items) : names item = (g.workload, g.metric, some scheduler) := by
  rw [armItems] at h
  split_ifs at h
  · obtain ⟨item', hthrottle, rfl⟩ := map_eq_ok.1 h
    rw [List.mem_singleton.1 hitem]
    exact names_throttleItem hthrottle
  · obtain ⟨scheduled, hscheduled, h⟩ := bind_eq_ok.1 h
    obtain ⟨interaction, hinteraction, rfl⟩ := map_eq_ok.1 h
    rcases List.mem_append.1 hitem with hitem | hitem
    · exact names_schedulerItems hscheduled hitem
    · exact names_interactionItems hinteraction hitem

theorem schedulerItems_eq_nil_iff (harm : arm ≠ [])
    (h : schedulerItems maths settings g scheduler arm = .ok items) :
    items = [] ↔ ¬ hasUnlimited g arm ∧ 1 < g.policies.length := by
  rw [schedulerItems] at h
  split_ifs at h with hunlimited hpolicies
  · obtain ⟨item', -, rfl⟩ := map_eq_ok.1 h
    simp [hunlimited]
  · have hlength := (traverse_eq_ok.1 h).length_eq
    rw [List.length_insertionSort] at hlength
    have hne : items ≠ [] := by
      rintro rfl
      exact harm (List.length_eq_zero_iff.1 hlength)
    exact iff_of_false hne fun hand => by omega
  · cases h
    exact iff_of_true rfl ⟨hunlimited, by omega⟩

theorem interactionItems_eq_nil_iff
    (h : interactionItems maths settings g scheduler arm = .ok items) :
    items = [] ↔ ¬ hasInteraction g scheduler arm := by
  rw [interactionItems] at h
  dsimp only at h
  split_ifs at h with hinteraction
  · cases h
    simp [hinteraction]
  · obtain ⟨logs, -, h⟩ := bind_eq_ok.1 h
    obtain ⟨item', -, rfl⟩ := map_eq_ok.1 h
    simp [hinteraction]
  · cases h
    simp [hinteraction]

/-- **An arm without a trace**: nothing about throttling, no common values without quota, more than
one policy and no quota interaction. -/
theorem armItems_eq_nil_iff (harm : arm ≠ [])
    (h : armItems maths settings g scheduler arm = .ok items) :
    items = [] ↔ isThrottle g.metric = false ∧ ¬ hasUnlimited g arm ∧ 1 < g.policies.length ∧
      ¬ hasInteraction g scheduler arm := by
  rw [armItems] at h
  split_ifs at h with hthrottle
  · obtain ⟨item', -, rfl⟩ := map_eq_ok.1 h
    simp [hthrottle]
  · obtain ⟨scheduled, hscheduled, h⟩ := bind_eq_ok.1 h
    obtain ⟨interaction, hinteraction, rfl⟩ := map_eq_ok.1 h
    rw [List.append_eq_nil_iff, schedulerItems_eq_nil_iff harm hscheduled,
      interactionItems_eq_nil_iff hinteraction]
    simp [hthrottle, and_assoc]

end Trace

/-! ### The groups of a list of observations -/

section Groups

omit [Field K]

variable (observations : List (Observation K)) (key : GroupKey) (scheduler : String)

/-- The group of a key. -/
def groupOf : ArmGroup K where
  workload := key.1
  metric := key.2.1
  direction := key.2.2
  policies := policiesPresent (schedulersOf observations key)
  control := policiesOf observations key controlScheduler

/-- The key has a control. -/
def HasControl : Prop := ∃ c ∈ observations, c.key = key ∧ c.scheduler = controlScheduler

/-- A non-control arm in a group that has a control. -/
structure IsArm : Prop where
  notControl : scheduler ≠ controlScheduler
  occurs : ∃ obs ∈ observations, obs.key = key ∧ obs.scheduler = scheduler
  control : HasControl observations key

variable {observations key scheduler}

theorem mem_policies {policy : Option String} :
    policy ∈ (groupOf observations key).policies ↔
      ∃ obs ∈ observations, obs.key = key ∧ obs.policy = policy := by
  simp only [groupOf, policiesPresent, List.mem_dedup, List.mem_flatMap]
  constructor
  · rintro ⟨⟨sched, byPolicy⟩, hmem, hpolicy⟩
    obtain ⟨-, rfl⟩ := (mem_schedulersOf observations).1 hmem
    obtain ⟨obs, hobs, hkey, -, heq⟩ := (mem_keys_policiesOf observations).1 hpolicy
    exact ⟨obs, hobs, hkey, heq⟩
  · rintro ⟨obs, hobs, hkey, heq⟩
    exact ⟨_, (mem_schedulersOf observations).2 ⟨⟨obs, hobs, hkey, rfl⟩, rfl⟩,
      (mem_keys_policiesOf observations).2 ⟨obs, hobs, hkey, rfl, heq⟩⟩

/-- The group knows at most one policy. -/
theorem length_policies_le_one_iff :
    (groupOf observations key).policies.length ≤ 1 ↔
      ∀ a ∈ observations, ∀ b ∈ observations, a.key = key → b.key = key → a.policy = b.policy := by
  have hnodup : (groupOf observations key).policies.Nodup := List.nodup_dedup _
  constructor
  · intro hle a ha b hb hak hbk
    have hamem := mem_policies.2 ⟨a, ha, hak, rfl⟩
    have hbmem := mem_policies.2 ⟨b, hb, hbk, rfl⟩
    generalize (groupOf observations key).policies = policies at hle hamem hbmem
    match policies with
    | [] => cases hamem
    | [policy] => rw [List.mem_singleton.1 hamem, List.mem_singleton.1 hbmem]
    | _ :: _ :: _ => simp at hle
  · intro hsame
    generalize hpolicies : (groupOf observations key).policies = policies at hnodup
    match policies with
    | [] => exact Nat.zero_le 1
    | [policy] => exact le_rfl
    | p :: q :: rest =>
      -- two policies of the group are equal
      obtain ⟨a, ha, hak, rfl⟩ := mem_policies.1 (hpolicies ▸ List.mem_cons_self)
      obtain ⟨b, hb, hbk, rfl⟩ :=
        mem_policies.1 (hpolicies ▸ List.mem_cons_of_mem _ List.mem_cons_self)
      have hne := (List.nodup_cons.1 hnodup).1
      rw [hsame a ha b hb hak hbk] at hne
      exact absurd List.mem_cons_self hne

theorem blocksOf_ne_nil {policy : Option String} :
    blocksOf observations key scheduler policy ≠ [] ↔
      ∃ obs ∈ observations, obs.key = key ∧ obs.scheduler = scheduler ∧ obs.policy = policy := by
  constructor
  · intro hne
    obtain ⟨⟨block, value⟩, hmem⟩ := List.exists_mem_of_ne_nil _ hne
    obtain ⟨obs, hobs, hkey, hsched, hpolicy, -⟩ :=
      (mem_keys_blocksOf observations).1 (List.mem_map.2 ⟨_, hmem, rfl⟩)
    exact ⟨obs, hobs, hkey, hsched, hpolicy⟩
  · rintro ⟨obs, hobs, hkey, hsched, hpolicy⟩ hnil
    have hmem := (mem_keys_blocksOf observations).2 ⟨obs, hobs, hkey, hsched, hpolicy, rfl⟩
    rw [hnil] at hmem
    cases hmem

theorem policiesOf_ne_nil :
    policiesOf observations key scheduler ≠ [] ↔
      ∃ obs ∈ observations, obs.key = key ∧ obs.scheduler = scheduler := by
  constructor
  · intro hne
    obtain ⟨⟨policy, blocks⟩, hmem⟩ := List.exists_mem_of_ne_nil _ hne
    obtain ⟨⟨obs, hobs, hkey, hsched, -⟩, -⟩ := (mem_policiesOf observations).1 hmem
    exact ⟨obs, hobs, hkey, hsched⟩
  · rintro ⟨obs, hobs, hkey, hsched⟩ hnil
    have hmem := (mem_keys_policiesOf observations).2 ⟨obs, hobs, hkey, hsched, rfl⟩
    rw [hnil] at hmem
    cases hmem

/-- The scheduler was measured without quota. -/
def MeasuredUnlimited (observations : List (Observation K)) (key : GroupKey) (scheduler : String) :
    Prop :=
  ∃ obs ∈ observations, obs.key = key ∧ obs.scheduler = scheduler ∧ obs.policy = unlimited

theorem hasUnlimited_iff :
    hasUnlimited (groupOf observations key) (policiesOf observations key scheduler) ↔
      MeasuredUnlimited observations key controlScheduler ∧
        MeasuredUnlimited observations key scheduler := by
  have hcontrol : ofPolicy (groupOf observations key).control unlimited =
      blocksOf observations key controlScheduler unlimited := lookup_policiesOf observations
  have harm : ofPolicy (policiesOf observations key scheduler) unlimited =
      blocksOf observations key scheduler unlimited := lookup_policiesOf observations
  rw [hasUnlimited, hcontrol, harm, blocksOf_ne_nil, blocksOf_ne_nil]
  refine and_iff_right_of_imp ?_
  rintro ⟨⟨obs, hobs, hkey, -, hpolicy⟩, -⟩
  exact mem_policies.2 ⟨obs, hobs, hkey, hpolicy⟩

/-- Whoever has both policies has common values without quota. -/
theorem hasUnlimited_of_hasInteraction
    (h : hasInteraction (groupOf observations key) scheduler
      (policiesOf observations key scheduler)) :
    hasUnlimited (groupOf observations key) (policiesOf observations key scheduler) := by
  obtain ⟨-, -, -, ⟨hcontrol, -⟩, harm, -⟩ := h
  exact hasUnlimited_iff.2 ⟨(mem_keys_policiesOf observations).1 hcontrol,
    (mem_keys_policiesOf observations).1 harm⟩

/-- The loop body reports the arm: the metric is about throttling, the group knows one policy only,
or the arm and the control were measured without quota. -/
def Traced (observations : List (Observation K)) (key : GroupKey) (scheduler : String) : Prop :=
  isThrottle key.2.1 = true ∨
  (∀ a ∈ observations, ∀ b ∈ observations, a.key = key → b.key = key → a.policy = b.policy) ∨
  MeasuredUnlimited observations key controlScheduler ∧ MeasuredUnlimited observations key scheduler

end Groups

/-! ### Nothing vanishes -/

section Covers

variable [LinearOrder K] {maths : Maths K} {settings : Settings K}
  {observations : List (Observation K)} {items : List (Item Label K)}

theorem traced_iff {key : GroupKey} {scheduler : String} (harm : IsArm observations key scheduler)
    (h : armItems maths settings (groupOf observations key) scheduler
      (policiesOf observations key scheduler) = .ok items) :
    Traced observations key scheduler ↔ items ≠ [] := by
  have hne := policiesOf_ne_nil.2 harm.occurs
  have hinteraction := @hasUnlimited_of_hasInteraction _ observations key scheduler
  have hthrottle : isThrottle (groupOf observations key).metric = false ↔
      ¬ isThrottle key.2.1 = true := Bool.not_eq_true _ ▸ Iff.rfl
  rw [Ne, armItems_eq_nil_iff hne h, hthrottle, Traced, ← length_policies_le_one_iff,
    ← hasUnlimited_iff]
  constructor
  · rintro (hthrottle | hpolicies | hunlimited) ⟨hnot, hnot', hlt, -⟩
    · exact hnot hthrottle
    · omega
    · exact hnot' hunlimited
  · intro hfound
    by_contra hnot
    rw [not_or, not_or, not_le] at hnot
    exact hfound ⟨hnot.1, hnot.2.2, hnot.2.1, mt hinteraction hnot.2.2⟩

theorem groupItems_of_hasControl {key : GroupKey} (h : HasControl observations key) :
    groupItems maths settings (key, schedulersOf observations key) =
      (Py.traverse (fun arm => armItems maths settings (groupOf observations key) arm.1 arm.2)
        (arms (schedulersOf observations key))).map List.flatten := by
  have hne := policiesOf_ne_nil.2 h
  rw [groupItems, lookup_schedulersOf]
  exact if_neg (by simpa using hne)

/-- A group without a control names no arm. -/
theorem groupItems_of_not_hasControl {key : GroupKey} (h : ¬ HasControl observations key)
    {found : List (Item Label K)}
    (hfound : groupItems maths settings (key, schedulersOf observations key) = .ok found) :
    ∀ item ∈ found, (names item).2.2 = none := by
  have hnil : policiesOf observations key controlScheduler = [] :=
    not_not.1 (mt policiesOf_ne_nil.1 h)
  rw [groupItems, lookup_schedulersOf, hnil] at hfound
  cases hfound
  simp [names]

omit [Field K] [LinearOrder K] in
theorem mem_arms {key : GroupKey} {arm : String × ByPolicy K} :
    arm ∈ arms (schedulersOf observations key) ↔ arm.1 ≠ controlScheduler ∧
      (∃ obs ∈ observations, obs.key = key ∧ obs.scheduler = arm.1) ∧
        arm.2 = policiesOf observations key arm.1 := by
  rw [arms, List.mem_filter, List.mem_insertionSort, mem_schedulersOf, and_comm,
    decide_eq_true_eq]

/-- **The items of the first pass** are those of the arms; the others name no arm. -/
theorem mem_collect (h : collect maths settings observations = .ok items) :
    (∀ key scheduler, IsArm observations key scheduler →
      ∃ found, armItems maths settings (groupOf observations key) scheduler
        (policiesOf observations key scheduler) = .ok found ∧ found ⊆ items) ∧
    ∀ item ∈ items, (names item).2.2 = none ∨
      ∃ key scheduler found, IsArm observations key scheduler ∧
        armItems maths settings (groupOf observations key) scheduler
          (policiesOf observations key scheduler) = .ok found ∧ item ∈ found := by
  obtain ⟨grouped, hgrouped, h⟩ := bind_eq_ok.1 h
  obtain ⟨groups, hgroups, rfl⟩ := map_eq_ok.1 h
  -- a cell observed twice ends the analysis before any item
  obtain ⟨-, hgroup⟩ | ⟨-, obs, -, herror⟩ := groupObservations_cases observations
  · cases hgrouped.symm.trans hgroup
    constructor
    · intro key scheduler harm
      obtain ⟨obs, hobs, hkey, hsched⟩ := harm.occurs
      have hentry : (key, schedulersOf observations key) ∈
          (group observations).insertionSort SchedAnalysis.groupLe :=
        (List.mem_insertionSort _).2 ((mem_group observations).2 ⟨⟨obs, hobs, hkey⟩, rfl⟩)
      obtain ⟨found, hfound⟩ := traverse_isOk.1 ⟨_, hgroups⟩ _ hentry
      have hmem := (mem_traverse hgroups).2 ⟨_, hentry, hfound⟩
      rw [groupItems_of_hasControl harm.control] at hfound
      obtain ⟨found, harms, rfl⟩ := map_eq_ok.1 hfound
      have harm' := mem_arms.2 ⟨harm.notControl, ⟨obs, hobs, hkey, hsched⟩,
        (rfl : (scheduler, policiesOf observations key scheduler).2 = _)⟩
      obtain ⟨its, hits⟩ := traverse_isOk.1 ⟨_, harms⟩ _ harm'
      refine ⟨its, hits, fun item hitem => ?_⟩
      exact List.mem_flatten.2 ⟨_, hmem,
        List.mem_flatten.2 ⟨its, (mem_traverse harms).2 ⟨_, harm', hits⟩, hitem⟩⟩
    · intro item hitem
      obtain ⟨found, hmem, hitem⟩ := List.mem_flatten.1 hitem
      obtain ⟨⟨key, bySched⟩, hentry, hfound⟩ := (mem_traverse hgroups).1 hmem
      obtain ⟨-, rfl⟩ := (mem_group observations).1 ((List.mem_insertionSort _).1 hentry)
      by_cases hcontrol : HasControl observations key
      · rw [groupItems_of_hasControl hcontrol] at hfound
        obtain ⟨its, harms, rfl⟩ := map_eq_ok.1 hfound
        obtain ⟨found, hmem, hitem⟩ := List.mem_flatten.1 hitem
        obtain ⟨⟨scheduler, arm⟩, harm, hfound⟩ := (mem_traverse harms).1 hmem
        obtain ⟨hne, hoccurs, heq⟩ := mem_arms.1 harm
        have heq : arm = policiesOf observations key scheduler := heq
        subst heq
        exact .inr ⟨key, scheduler, found, ⟨hne, hoccurs, hcontrol⟩, hfound, hitem⟩
      · exact .inl (groupItems_of_not_hasControl hcontrol hfound item hitem)
  · cases hgrouped.symm.trans herror

/-- The arm has a verdict or an entry in `skipped`. -/
def Reported (result : AnalysisResult Label K) (workload metric scheduler : String) : Prop :=
  (∃ v ∈ result.verdicts, v.label.workload = workload ∧ v.label.metric = metric ∧
    v.label.scheduler = scheduler) ∨
  ∃ entry ∈ result.skipped, entry.workload = workload ∧ entry.metric = metric ∧
    entry.scheduler = some scheduler

theorem length_holmDecisions {alpha : K} {entries : List (Comparison Label K)} {ds : List Decision}
    (h : holmDecisions maths alpha entries = .ok ds) : ds.length = entries.length := by
  rw [holmDecisions] at h
  split_ifs at h
  · cases h
    exact length_decisions maths entries []
  · obtain ⟨results, -, rfl⟩ := map_eq_ok.1 h
    exact length_decisions maths entries results

theorem reported_iff {result : AnalysisResult Label K}
    (h : conclude maths (holmDecisions maths settings.alpha) settings.alpha items = .ok result)
    {workload metric scheduler : String} :
    Reported result workload metric scheduler ↔
      ∃ item ∈ items, names item = (workload, metric, some scheduler) := by
  obtain ⟨hlabels, hskipped⟩ := conclude_reports (fun _ _ => length_holmDecisions) h
  constructor
  · rintro (⟨v, hv, rfl, rfl, rfl⟩ | ⟨entry, hentry, rfl, rfl, hsched⟩)
    · obtain ⟨item, hitem, hlabel⟩ := (hlabels v.label).1 (List.mem_map.2 ⟨v, hv, rfl⟩)
      exact ⟨item, hitem, names_of_label? hlabel⟩
    · exact ⟨_, (hskipped entry).1 hentry, by rw [names, hsched]⟩
  · rintro ⟨item, hitem, hnames⟩
    rcases hlabel : item.label? with _ | label
    · cases item with
      | skipped entry =>
        simp only [names, Prod.mk.injEq] at hnames
        exact .inr ⟨entry, (hskipped entry).2 hitem, hnames⟩
      | incomplete verdict => cases hlabel
      | tested entry boot => cases hlabel
    · obtain ⟨v, hv, rfl⟩ := List.mem_map.1 ((hlabels label).2 ⟨item, hitem, hlabel⟩)
      rw [names_of_label? hlabel] at hnames
      cases hnames
      exact .inl ⟨v, hv, rfl, rfl, rfl⟩

/-- **Nothing vanishes** exactly when every arm is reported in some group of its workload and
metric. -/
theorem analyse_covers_iff {result : AnalysisResult Label K}
    (h : analyse maths settings observations = .ok result) :
    (∀ key scheduler, IsArm observations key scheduler →
      Reported result key.1 key.2.1 scheduler) ↔
    ∀ key scheduler, IsArm observations key scheduler →
      ∃ direction, IsArm observations (key.1, key.2.1, direction) scheduler ∧
        Traced observations (key.1, key.2.1, direction) scheduler := by
  obtain ⟨items, hitems, h⟩ := bind_eq_ok.1 h
  obtain ⟨harms, hothers⟩ := mem_collect hitems
  refine forall_congr' fun key => forall_congr' fun scheduler => forall_congr' fun harm => ?_
  rw [reported_iff h]
  constructor
  · rintro ⟨item, hitem, hnames⟩
    rcases hothers item hitem with hnone | ⟨key', scheduler', found, harm', hfound, hmem⟩
    · rw [hnames] at hnone
      cases hnone
    · have hnames' := names_armItems hfound hmem
      rw [hnames] at hnames'
      obtain ⟨workload, metric, direction⟩ := key'
      obtain ⟨workload', metric', direction'⟩ := key
      cases hnames'
      exact ⟨direction, harm', (traced_iff harm' hfound).2 (List.ne_nil_of_mem hmem)⟩
  · rintro ⟨direction, harm', htraced⟩
    obtain ⟨found, hfound, hsub⟩ := harms _ _ harm'
    obtain ⟨item, hitem⟩ := List.exists_mem_of_ne_nil _ ((traced_iff harm' hfound).1 htraced)
    exact ⟨item, hsub hitem, names_armItems hfound hitem⟩

end Covers

/-! ### An arm without a trace -/

/-- The settings of a short run. -/
def shortRun : Settings ℚ where
  rng := { draw := fun _ _ _ => 0, lt := fun _ _ _ h => h }
  requiredBlocks := []
  alpha := 1 / 20
  bootstrapResamples := 1
  bootstrapSeed := 0

/-- The observations of a scheduler under a policy in three blocks. -/
def threeBlocks (scheduler : String) (policy : Option String) : List (Observation ℚ) :=
  ["b1", "b2", "b3"].map fun block =>
    { blockId := block
      workload := "hackbench"
      metric := "throughput"
      scheduler := scheduler
      value := 1
      direction := none
      policy := policy }

/-- The control under both policies, the arm under the limited one. -/
def limitedArm : List (Observation ℚ) :=
  threeBlocks "eevdf" unlimited ++ threeBlocks "eevdf" limited ++ threeBlocks "scx_lavd" limited

theorem analyse_limitedArm :
    analyse roughMaths shortRun limitedArm = .ok { verdicts := [], skipped := [] } := by
  decide +kernel

theorem isArm_limitedArm : IsArm limitedArm ("hackbench", "throughput", none) "scx_lavd" where
  notControl := by decide
  occurs := ⟨_, List.mem_append_right _ List.mem_cons_self, rfl, rfl⟩
  control := ⟨_, List.mem_append_left _ (List.mem_append_left _ List.mem_cons_self), rfl, rfl⟩

/-- What the criterion says about the limited arm: no direction reports it. -/
theorem analyse_covers_iff_limitedArm :
    ¬ ∀ key scheduler, IsArm limitedArm key scheduler →
      ∃ direction, IsArm limitedArm (key.1, key.2.1, direction) scheduler ∧
        Traced limitedArm (key.1, key.2.1, direction) scheduler := by
  intro htraced
  have := (analyse_covers_iff analyse_limitedArm).2 htraced _ _ isArm_limitedArm
  simp [Reported] at this

/-- **An arm vanishes.**  An arm measured under the limited policy only, against a control measured
under both, has neither a verdict nor an entry in `skipped`. -/
theorem analyse_loses_arm :
    analyse roughMaths shortRun limitedArm = .ok { verdicts := [], skipped := [] } ∧
    IsArm limitedArm ("hackbench", "throughput", none) "scx_lavd" ∧
    ¬ Reported ({ verdicts := [], skipped := [] } : AnalysisResult Label ℚ) "hackbench"
      "throughput" "scx_lavd" :=
  ⟨analyse_limitedArm, isArm_limitedArm, by simp [Reported]⟩

end FactorialAnalysis

end LinuxSched

import K8Labs.LinuxSched.HolmStepDown
import K8Labs.Python.Groups
import K8Labs.Python.Value

/-!
# The scheduler-only analysis

`research/linux-sched/analysis/sched_analysis.py`.  `analyse` files the observations under workload,
metric and direction, then scheduler and block, states every contrast of an arm with the control
(`collect`), and lets two step-downs over the predeclared family decide (`holmDecisions`).

* `groupObservations_cases`: the grouping accepts the lists in which no place is taken twice.
* `holmDecisions_swapped`: with the roles of arm and control exchanged a family is decided as the
  original one with the mirrored equivalence band, improvement and regression exchanged.
-/

namespace LinuxSched

namespace SchedAnalysis

open Py

/-! ### Constants -/

/-- `CONTROL_SCHEDULER`. -/
def controlScheduler : String := "eevdf"

/-- `PRIMARY_CONTRASTS`. -/
def primaryContrasts : ℕ := 10

/-- `MIN_BLOCKS_FOR_VERDICT`. -/
def minBlocksForVerdict : ℕ := 3

/-- `LOWER_IS_BETTER`. -/
def lowerIsBetter : List String :=
  ["latency_p99_ms", "latency_p50_ms", "submit_to_scheduled_p99_ms", "runqlat_p99_us",
    "runqlen_p99"]

/-- `DESCRIPTIVE_WORKLOADS`. -/
def descriptiveWorkloads : List String := ["mixed-http-ffmpeg"]

/-- `is_descriptive`. -/
def isDescriptive (workload : String) : Bool := workload ∈ descriptiveWorkloads

variable {K : Type} [Field K]

/-- `practical_effect`, with `PRACTICAL_EFFECT_BY_METRIC` and `PRACTICAL_EFFECT`. -/
def practicalEffect (metric : String) : K := if metric = "latency_p99_ms" then 1 / 5 else 1 / 20

/-! ### Observations -/

/-- `Observation`. -/
structure Observation (K : Type) where
  blockId : String
  workload : String
  metric : String
  scheduler : String
  value : K
  direction : Option String

/-- What names a contrast in a `Verdict`. -/
structure Label where
  workload : String
  metric : String
  scheduler : String
  deriving DecidableEq

namespace Observation

variable (obs : Observation K)

omit [Field K]

/-- The key of `grouped`. -/
def key : String × String × Option String := (obs.workload, obs.metric, obs.direction)

/-- The measured cell: where `grouped` has room for one value. -/
def cell : (String × String × Option String) × String × String :=
  (obs.key, obs.scheduler, obs.blockId)

end Observation

/-- `grouped`: per key, per scheduler, the value of each block. -/
abbrev Grouped (K : Type) :=
  List ((String × String × Option String) × List (String × List (String × K)))

section Grouping

omit [Field K]

/-- `setdefault(obs.scheduler, {})[obs.block_id] = obs.value`. -/
def fileBlock (bySched : List (String × List (String × K))) (obs : Observation K) :
    List (String × List (String × K)) :=
  Dict.setdefault obs.scheduler (Dict.update obs.blockId fun _ => obs.value) bySched

/-- One assignment of the grouping loop. -/
def place (grouped : Grouped K) (obs : Observation K) : Grouped K :=
  Dict.setdefault obs.key (fileBlock · obs) grouped

/-- `per_scheduler` for an observation. -/
def perScheduler (grouped : Grouped K) (obs : Observation K) : List (String × K) :=
  (((grouped.lookup obs.key).getD []).lookup obs.scheduler).getD []

/-- The text of the error. -/
def duplicateMessage (obs : Observation K) : String :=
  "duplicate observation for block=" ++ quoted obs.blockId ++ " scheduler=" ++
    quoted obs.scheduler ++ " metric=" ++ quoted obs.metric

/-- The grouping loop of `analyse`. -/
def groupObservations (observations : List (Observation K)) : Except Exc (Grouped K) :=
  fold (fun grouped obs =>
    if obs.blockId ∈ (perScheduler grouped obs).map Prod.fst then
      .error ⟨.valueError, duplicateMessage obs⟩
    else .ok (place grouped obs)) [] observations

/-- `grouped` when every observation is filed. -/
def group (observations : List (Observation K)) : Grouped K := observations.foldl place []

/-- What is filed for a key. -/
def schedulersOf (observations : List (Observation K)) (key : String × String × Option String) :
    List (String × List (String × K)) :=
  Dict.group Observation.scheduler (fun d obs => Dict.update obs.blockId (fun _ => obs.value) d)
    (Dict.share Observation.key observations key)

/-- What is filed for a key and a scheduler. -/
def blocksOf (observations : List (Observation K)) (key : String × String × Option String)
    (scheduler : String) : List (String × K) :=
  Dict.index Observation.blockId Observation.value
    (Dict.share Observation.scheduler (Dict.share Observation.key observations key) scheduler)

theorem mem_group {observations : List (Observation K)} {key : String × String × Option String}
    {bySched : List (String × List (String × K))} :
    (key, bySched) ∈ group observations ↔
      (∃ obs ∈ observations, obs.key = key) ∧ bySched = schedulersOf observations key :=
  Dict.mem_group

theorem mem_schedulersOf {observations : List (Observation K)}
    {key : String × String × Option String} {scheduler : String} {blocks : List (String × K)} :
    (scheduler, blocks) ∈ schedulersOf observations key ↔
      (∃ obs ∈ observations, obs.key = key ∧ obs.scheduler = scheduler) ∧
        blocks = blocksOf observations key scheduler := by
  rw [schedulersOf, Dict.mem_group]
  simp only [Dict.mem_share, and_assoc]
  rfl

theorem lookup_schedulersOf (observations : List (Observation K))
    (key : String × String × Option String) (scheduler : String) :
    ((schedulersOf observations key).lookup scheduler).getD [] =
      blocksOf observations key scheduler :=
  Dict.getD_lookup_group

/-- A place is taken when the cell came before. -/
theorem taken_iff (observations : List (Observation K)) (obs : Observation K) :
    obs.blockId ∈ (perScheduler (group observations) obs).map Prod.fst ↔
      ∃ earlier ∈ observations, earlier.cell = obs.cell := by
  have hkey : ((group observations).lookup obs.key).getD [] = schedulersOf observations obs.key :=
    Dict.getD_lookup_group
  rw [perScheduler, hkey, lookup_schedulersOf, blocksOf, Dict.mem_keys_index]
  simp [Observation.cell, and_assoc]

/-- **The grouping accepts what has no duplicates.** -/
theorem groupObservations_cases (observations : List (Observation K)) :
    ((observations.map Observation.cell).Nodup ∧
      groupObservations observations = .ok (group observations)) ∨
    (¬ (observations.map Observation.cell).Nodup ∧
      ∃ obs ∈ observations,
        groupObservations observations = .error ⟨.valueError, duplicateMessage obs⟩) :=
  Dict.fold_fresh Observation.cell taken_iff observations

end Grouping

/-! ### The first pass -/

section Analyse

variable [LinearOrder K] (maths : Maths K) (settings : Settings K)

/-- The loop body for an arm. -/
def armItem (workload metric : String) (direction : Option String) (control : List (String × K))
    (arm : String × List (String × K)) : Except Exc (Item Label K) :=
  let shared := sharedBlocks control arm.2
  if shared.length < minBlocksForVerdict then
    .ok (.skipped
      { workload := workload
        metric := metric
        scheduler := some arm.1
        reason := "fewer than " ++ toString minBlocksForVerdict ++ " paired blocks"
        sharedBlocks := some shared.length })
  else
    (Py.traverse (fun block => orientedLogRatio maths ((control.lookup block).getD 0)
      ((arm.2.lookup block).getD 0) (isLowerBetter lowerIsBetter metric direction)) shared).bind
    fun logs => evaluate maths settings
      { workload := workload, metric := metric, scheduler := arm.1 } workload metric logs
      (practicalEffect metric) (isDescriptive workload)

/-- The loop body for a group. -/
def groupItems (entry : (String × String × Option String) × List (String × List (String × K))) :
    Except Exc (List (Item Label K)) :=
  let (workload, metric, direction) := entry.1
  let control := (entry.2.lookup controlScheduler).getD []
  if control.isEmpty then
    .ok [.skipped
      { workload := workload
        metric := metric
        scheduler := none
        reason := "no control arm"
        sharedBlocks := none }]
  else
    Py.traverse (armItem maths settings workload metric direction control)
      ((entry.2.insertionSort keyLe).filter fun arm => arm.1 ≠ controlScheduler)

/-- The order of `sorted(grouped.items(), key=lambda item: (item[0][0], item[0][1]))`. -/
def groupLe {V : Type} (a b : (String × String × Option String) × V) : Prop :=
  a.1.1 < b.1.1 ∨ a.1.1 = b.1.1 ∧ a.1.2.1 ≤ b.1.2.1

instance {V : Type} : DecidableRel (groupLe (V := V)) :=
  fun a b => inferInstanceAs (Decidable (a.1.1 < b.1.1 ∨ a.1.1 = b.1.1 ∧ a.1.2.1 ≤ b.1.2.1))

/-- `analyse` up to the end of the first pass. -/
def collect (observations : List (Observation K)) : Except Exc (List (Item Label K)) :=
  (groupObservations observations).bind fun grouped =>
    (Py.traverse (groupItems maths settings) (grouped.insertionSort groupLe)).map List.flatten

/-- `holm_decisions`. -/
def holmDecisions (alpha : K) (comparisons : List (Comparison Label K)) :
    Except Exc (List Decision) :=
  let tested := comparisons.filter isTested
  if tested.isEmpty then .ok (decisions maths comparisons [])
  else
    let dfs := tested.map Comparison.df
    (holmStepDown (tPpf maths) (tested.map noEffectScore) dfs alpha 2 (some primaryContrasts)).bind
    fun rejectsNoEffect =>
      (holmStepDown (tPpf maths) (tested.map tostScore) dfs alpha 1 (some primaryContrasts)).map
      fun rejectsTost => decisions maths comparisons (rejectsNoEffect.zip rejectsTost)

/-- `analyse`. -/
def analyse (observations : List (Observation K)) : Except Exc (AnalysisResult Label K) :=
  (collect maths settings observations).bind
    (conclude maths (holmDecisions maths settings.alpha) settings.alpha)

end Analyse

/-! ### Exchanging arm and control -/

section Exchange

variable [LinearOrder K] (maths : Maths K)

/-- The paired observations of a contrast: per block the value of the control and of the arm. -/
structure Pairing (K : Type) where
  label : Label
  pairs : List (K × K)
  lowerIsBetter : Bool
  effect : K
  descriptive : Bool

/-- The arm as control and the control as arm. -/
def Pairing.swapped (pairing : Pairing K) : Pairing K :=
  { pairing with pairs := pairing.pairs.map Prod.swap }

/-- The edges of the equivalence band `[1 - effect, 1 + effect]`. -/
def ratioBand (effect : K) : K × K := (maths.log (1 - effect), maths.log (1 + effect))

/-- The edges of its mirror image `[1 / (1 + effect), 1 / (1 - effect)]`. -/
def mirroredBand (effect : K) : K × K := (-maths.log (1 + effect), -maths.log (1 - effect))

/-- The log ratios of a contrast. -/
def Pairing.logs (pairing : Pairing K) : Except Exc (List K) :=
  Py.traverse (fun pair => orientedLogRatio maths pair.1 pair.2 pairing.lowerIsBetter) pairing.pairs

/-- The entry of a contrast. -/
def Pairing.entry (band : K → K × K) (pairing : Pairing K) (logs : List K) : Comparison Label K :=
  comparisonWithin maths pairing.label logs (band pairing.effect).1 (band pairing.effect).2
    pairing.effect pairing.descriptive

/-- The verdicts on a family of contrasts. -/
def decidePairings (band : K → K × K) (alpha : K) (pairings : List (Pairing K)) :
    Except Exc (List Decision) :=
  (Py.traverse (fun pairing => (pairing.logs maths).map (pairing.entry maths band)) pairings).bind
    (holmDecisions maths alpha)

/-- Improvement and regression exchanged. -/
def exchanged : Decision → Decision
  | .improvement => .regression
  | .regression => .improvement
  | decision => decision

variable {maths}

/-- Two entries that are tested alike. -/
structure Alike (a b : Comparison Label K) : Prop where
  descriptive : b.descriptive = a.descriptive
  incomplete : b.incomplete = a.incomplete
  df : b.df = a.df
  noEffect : noEffectScore b = noEffectScore a

/-- An entry and the one of the exchanged roles. -/
structure Mirrors (maths : Maths K) (a b : Comparison Label K) : Prop extends Alike a b where
  tost : tostScore b = tostScore a
  classify : ∀ noEffect tost,
    LinuxSched.classify maths b noEffect tost =
      exchanged (LinuxSched.classify maths a noEffect tost)

theorem Alike.isTested {a b : Comparison Label K} (h : Alike a b) : isTested b = isTested a := by
  rw [LinuxSched.isTested, LinuxSched.isTested, h.descriptive, h.incomplete]

theorem map_filter_tested {β : Type} {f : Comparison Label K → β}
    {as bs : List (Comparison Label K)} (h : List.Forall₂ Alike as bs)
    (hf : List.Forall₂ (fun a b => f b = f a) as bs) :
    (bs.filter isTested).map f = (as.filter isTested).map f := by
  induction h with
  | nil => rfl
  | cons hab _ ih =>
    rw [List.forall₂_cons] at hf
    rw [List.filter_cons, List.filter_cons, hab.isTested]
    split_ifs
    · rw [List.map_cons, List.map_cons, hf.1, ih hf.2]
    · exact ih hf.2

/-- The decisions of exchanged roles are exchanged. -/
theorem decisions_mirrors {as bs : List (Comparison Label K)}
    (h : List.Forall₂ (Mirrors maths) as bs) (results : List (Bool × Bool)) :
    decisions maths bs results = (decisions maths as results).map exchanged := by
  induction h generalizing results with
  | nil => rfl
  | cons hab _ ih =>
    rw [decisions, decisions, hab.incomplete, hab.descriptive]
    split_ifs
    · rw [List.map_cons, ih]
      rfl
    · rw [List.map_cons, ih]
      rfl
    · rw [List.map_cons, ih, ← hab.classify]

theorem holmDecisions_mirrors {as bs : List (Comparison Label K)}
    (h : List.Forall₂ (Mirrors maths) as bs) (alpha : K) :
    holmDecisions maths alpha bs = (holmDecisions maths alpha as).map (List.map exchanged) := by
  have halike := h.imp fun _ _ h => h.toAlike
  have htested := map_filter_tested halike (halike.imp fun _ _ h => h.df)
  have hnoEffect := map_filter_tested halike (halike.imp fun _ _ h => h.noEffect)
  have htost := map_filter_tested halike (h.imp fun _ _ h => h.tost)
  have hempty : (bs.filter isTested).isEmpty = (as.filter isTested).isEmpty := by
    rw [← List.isEmpty_map (f := Comparison.df), htested, List.isEmpty_map]
  rw [holmDecisions, holmDecisions]
  simp only [hempty, htested, hnoEffect, htost, decisions_mirrors h]
  split_ifs
  · rfl
  · cases holmStepDown (tPpf maths) ((as.filter isTested).map noEffectScore)
      ((as.filter isTested).map Comparison.df) alpha 2 (some primaryContrasts) with
    | error e => rfl
    | ok rejectsNoEffect =>
      cases holmStepDown (tPpf maths) ((as.filter isTested).map tostScore)
        ((as.filter isTested).map Comparison.df) alpha 1 (some primaryContrasts) <;> rfl

/-- Two decisions that differ in the equivalence test only. -/
def SameEffect (d d' : Decision) : Prop :=
  d = d' ∨ d ∈ [Decision.equivalent, .inconclusive] ∧ d' ∈ [Decision.equivalent, .inconclusive]

theorem SameEffect.exchanged {d d' : Decision} (h : SameEffect d d') :
    SameEffect (exchanged d) (SchedAnalysis.exchanged d') := by
  rcases h with rfl | ⟨hd, hd'⟩
  · exact .inl rfl
  · simp only [List.mem_cons, List.not_mem_nil, or_false] at hd hd'
    rcases hd with rfl | rfl <;> rcases hd' with rfl | rfl <;>
      simp [SameEffect, SchedAnalysis.exchanged]

/-- Two entries that differ in the equivalence band only. -/
structure SameData (a b : Comparison Label K) : Prop extends Alike a b where
  mean : b.mean = a.mean
  effect : b.effect = a.effect

theorem decisions_sameEffect {as bs : List (Comparison Label K)}
    (h : List.Forall₂ SameData as bs) {results results' : List (Bool × Bool)}
    (hresults : results.map Prod.fst = results'.map Prod.fst) :
    List.Forall₂ SameEffect (decisions maths as results) (decisions maths bs results') := by
  induction h generalizing results results' with
  | nil => exact .nil
  | @cons a b _ _ hab _ ih =>
    have hclassify : ∀ noEffect tost tost',
        SameEffect (classify maths a noEffect tost) (classify maths b noEffect tost') := by
      intro noEffect tost tost'
      rw [classify, classify, hab.mean, hab.effect]
      split_ifs <;> simp [SameEffect]
    rw [decisions, decisions, hab.incomplete, hab.descriptive]
    split_ifs
    · exact .cons (.inl rfl) (ih hresults)
    · exact .cons (.inl rfl) (ih hresults)
    · have hhead : (results.headD (false, false)).1 = (results'.headD (false, false)).1 := by
        cases results <;> cases results' <;> simp_all
      refine .cons (hhead ▸ hclassify _ _ _) (ih ?_)
      rw [List.map_tail, List.map_tail, hresults]

theorem holmDecisions_sameEffect {as bs : List (Comparison Label K)}
    (h : List.Forall₂ SameData as bs) {alpha : K} {ds ds' : List Decision}
    (hds : holmDecisions maths alpha as = .ok ds) (hds' : holmDecisions maths alpha bs = .ok ds') :
    List.Forall₂ SameEffect ds ds' := by
  have halike := h.imp fun _ _ h => h.toAlike
  have htested := map_filter_tested halike (halike.imp fun _ _ h => h.df)
  have hnoEffect := map_filter_tested halike (halike.imp fun _ _ h => h.noEffect)
  have hempty : (bs.filter isTested).isEmpty = (as.filter isTested).isEmpty := by
    rw [← List.isEmpty_map (f := Comparison.df), htested, List.isEmpty_map]
  have hlength : (bs.filter isTested).length = (as.filter isTested).length := by
    simpa using congrArg List.length htested
  rw [holmDecisions] at hds hds'
  simp only [hempty, htested, hnoEffect] at hds hds'
  split_ifs at hds hds'
  · cases hds
    cases hds'
    exact decisions_sameEffect h rfl
  · obtain ⟨noEffect, hno, hds⟩ := bind_eq_ok.1 hds
    obtain ⟨noEffect', hno', hds'⟩ := bind_eq_ok.1 hds'
    obtain ⟨tost, htost, rfl⟩ := map_eq_ok.1 hds
    obtain ⟨tost', htost', rfl⟩ := map_eq_ok.1 hds'
    cases hno.symm.trans hno'
    have hl := length_holmStepDown hno
    have ht := length_holmStepDown htost
    have ht' := length_holmStepDown htost'
    rw [List.length_map] at hl ht ht'
    refine decisions_sameEffect h ?_
    rw [List.map_fst_zip (by omega), List.map_fst_zip (by omega)]

end Exchange

section Swap

variable [LinearOrder K] [IsStrictOrderedRing K] {maths : Maths K}

/-- A statistic of the opposite numerator. -/
theorem tStatistic_neg (se numerator : K) :
    tStatistic se (-numerator) = (tStatistic se numerator).neg := by
  rw [tStatistic, tStatistic]
  rcases lt_trichotomy numerator 0 with h | rfl | h
  · simp only [neg_pos, h, if_true, neg_lt_zero, not_lt.2 h.le, if_false, neg_div]
    split_ifs <;> rfl
  · simp only [neg_zero, lt_irrefl, if_false, zero_div]
    split_ifs <;> simp
  · simp only [neg_pos, h, if_true, neg_lt_zero, not_lt.2 h.le, if_false, neg_div]
    split_ifs <;> rfl

/-- What the logarithm of a library is good for. -/
structure Logarithm (maths : Maths K) : Prop where
  inv : ∀ a b, 0 < a → 0 < b → maths.log (a / b) = -maths.log (b / a)
  pos : ∀ x, 1 < x → 0 < maths.log x

omit [IsStrictOrderedRing K] in
theorem orientedLogRatio_swap (hlog : Logarithm maths) (control arm : K) (lower : Bool) :
    orientedLogRatio maths arm control lower =
      (orientedLogRatio maths control arm lower).map Neg.neg := by
  rw [orientedLogRatio, orientedLogRatio]
  by_cases h : control ≤ 0 ∨ arm ≤ 0
  · rw [if_pos h, if_pos h.symm]
    rfl
  · rw [if_neg h, if_neg fun h' => h h'.symm]
    rw [not_or, not_le, not_le] at h
    cases lower
    · exact congrArg Except.ok (hlog.inv control arm h.1 h.2)
    · exact congrArg Except.ok (congrArg Neg.neg (hlog.inv control arm h.1 h.2))

omit [IsStrictOrderedRing K] in
/-- Exchanging the roles negates every log ratio. -/
theorem logs_swapped (hlog : Logarithm maths) (pairing : Pairing K) :
    pairing.swapped.logs maths = (pairing.logs maths).map (List.map Neg.neg) := by
  rw [Pairing.logs, Pairing.logs, ← traverse_map_result, Pairing.swapped, traverse_map]
  congr 1
  funext pair
  exact orientedLogRatio_swap hlog pair.1 pair.2 pairing.lowerIsBetter

/-- The entry of the exchanged roles mirrors the one with the mirrored band. -/
theorem mirrors_entry (hlog : Logarithm maths) {pairing : Pairing K} (heffect : 0 < pairing.effect)
    (logs : List K) :
    Mirrors maths (pairing.entry maths (mirroredBand maths) logs)
      (pairing.swapped.entry maths (ratioBand maths) (logs.map Neg.neg)) := by
  have hband : 0 < maths.log (1 + pairing.effect) := hlog.pos _ (by linarith)
  have hlower : ∀ x : K, -fmean logs - x = -(fmean logs - -x) := fun x => by ring
  refine { descriptive := rfl, incomplete := rfl, df := ?_, noEffect := ?_, tost := ?_,
           classify := fun noEffect tost => ?_ }
  · simp [Pairing.entry, comparisonWithin]
  · simp [noEffectScore, Pairing.entry, comparisonWithin, fmean_map_neg, stdev_map_neg,
      tStatistic_neg]
  · simp only [tostScore, Pairing.entry, comparisonWithin, fmean_map_neg, stdev_map_neg,
      Pairing.swapped, ratioBand, mirroredBand, List.length_map, hlower, tStatistic_neg,
      Extended.neg_neg]
    exact min_comm _ _
  · simp only [LinuxSched.classify, Pairing.entry, comparisonWithin, fmean_map_neg,
      Pairing.swapped, le_neg (a := maths.log (1 + pairing.effect)), neg_le_neg_iff]
    cases noEffect
    · cases tost <;> rfl
    · -- a mean cannot clear both edges of the band
      by_cases hhigh : maths.log (1 + pairing.effect) ≤ fmean logs
      · have hlow : ¬ fmean logs ≤ -maths.log (1 + pairing.effect) := by linarith
        simp [hhigh, hlow, exchanged]
      · by_cases hlow : fmean logs ≤ -maths.log (1 + pairing.effect)
        · simp [hhigh, hlow, exchanged]
        · cases tost <;> simp [hhigh, hlow, exchanged]

omit [IsStrictOrderedRing K] in
theorem sameData_entry (pairing : Pairing K) (logs : List K) :
    SameData (pairing.entry maths (ratioBand maths) logs)
      (pairing.entry maths (mirroredBand maths) logs) where
  descriptive := rfl
  incomplete := rfl
  df := rfl
  noEffect := rfl
  mean := rfl
  effect := rfl

omit [Field K] [LinearOrder K] [IsStrictOrderedRing K] in
/-- The entries of a family, with one band and with another. -/
theorem entries_forall₂ {R : Comparison Label K → Comparison Label K → Prop}
    {pairings : List (Pairing K)} {logs : List (List K)}
    {f g : Pairing K → List K → Comparison Label K}
    (hR : ∀ pairing ∈ pairings, ∀ logs, R (f pairing logs) (g pairing logs)) :
    List.Forall₂ R (List.zipWith f pairings logs) (List.zipWith g pairings logs) := by
  induction pairings generalizing logs with
  | nil => exact .nil
  | cons pairing pairings ih =>
    cases logs with
    | nil => exact .nil
    | cons l logs =>
      exact .cons (hR _ List.mem_cons_self l) (ih fun p hp => hR p (List.mem_cons_of_mem _ hp))

/-- **Exchanging the roles of arm and control** exchanges improvement and regression, and leaves the
other verdicts among themselves.  The exact verdicts are those of the original pairs with the
equivalence band `[1 / (1 + effect), 1 / (1 - effect)]` in place of `[1 - effect, 1 + effect]`. -/
theorem decidePairings_swapped (hlog : Logarithm maths) (alpha : K) (pairings : List (Pairing K))
    (heffect : ∀ pairing ∈ pairings, 0 < pairing.effect) :
    decidePairings maths (ratioBand maths) alpha (pairings.map Pairing.swapped) =
        (decidePairings maths (mirroredBand maths) alpha pairings).map (List.map exchanged) ∧
    ∀ ds ds', decidePairings maths (ratioBand maths) alpha pairings = .ok ds →
      decidePairings maths (ratioBand maths) alpha (pairings.map Pairing.swapped) = .ok ds' →
      List.Forall₂ (fun d d' => SameEffect (exchanged d) d') ds ds' := by
  have hband : ∀ band, decidePairings maths band alpha pairings =
      (Py.traverse (Pairing.logs maths) pairings).bind fun logs =>
        holmDecisions maths alpha (List.zipWith (Pairing.entry maths band) pairings logs) := by
    intro band
    rw [decidePairings, traverse_map_zipWith]
    cases Py.traverse (Pairing.logs maths) pairings <;> rfl
  have hswapped : decidePairings maths (ratioBand maths) alpha (pairings.map Pairing.swapped) =
      (Py.traverse (Pairing.logs maths) pairings).bind fun logs => holmDecisions maths alpha
        (List.zipWith (fun pairing logs => pairing.swapped.entry maths (ratioBand maths)
          (logs.map Neg.neg)) pairings logs) := by
    have hstep : (fun pairing : Pairing K => (pairing.swapped.logs maths).map
          (pairing.swapped.entry maths (ratioBand maths))) = fun pairing =>
        (pairing.logs maths).map fun logs =>
          pairing.swapped.entry maths (ratioBand maths) (logs.map Neg.neg) := by
      funext pairing
      rw [logs_swapped hlog]
      cases pairing.logs maths <;> rfl
    rw [decidePairings, traverse_map, hstep, traverse_map_zipWith]
    cases Py.traverse (Pairing.logs maths) pairings <;> rfl
  -- the pairs that have no logarithm are the same on both sides
  rw [hswapped, hband, hband]
  cases Py.traverse (Pairing.logs maths) pairings with
  | error e => exact ⟨rfl, fun ds ds' h => by cases h⟩
  | ok logs =>
    have hmirrors : List.Forall₂ (Mirrors maths)
        (List.zipWith (Pairing.entry maths (mirroredBand maths)) pairings logs)
        (List.zipWith (fun pairing logs => pairing.swapped.entry maths (ratioBand maths)
          (logs.map Neg.neg)) pairings logs) :=
      entries_forall₂ fun pairing hp logs => mirrors_entry hlog (heffect pairing hp) logs
    have hmirror := holmDecisions_mirrors hmirrors alpha
    refine ⟨hmirror, fun ds ds' hds hds' => ?_⟩
    obtain ⟨mirrored, hmirrored, rfl⟩ := map_eq_ok.1 (hmirror.symm.trans hds')
    have hdata : List.Forall₂ SameData
        (List.zipWith (Pairing.entry maths (ratioBand maths)) pairings logs)
        (List.zipWith (Pairing.entry maths (mirroredBand maths)) pairings logs) :=
      entries_forall₂ fun pairing _ logs => sameData_entry pairing logs
    have hsame := holmDecisions_sameEffect hdata hds hmirrored
    rw [List.forall₂_map_right_iff]
    exact hsame.imp fun d d' h => h.exchanged

end Swap

/-! ### Nine blocks -/

/-- Nine blocks in which the arm is about 4.9 % better, just inside the band. -/
def ninePairs : Pairing ℚ where
  label := { workload := "hackbench", metric := "throughput", scheduler := "scx_lavd" }
  pairs := List.replicate 4 (1.9505, 2.0495) ++ List.replicate 4 (1.9535, 2.0465) ++
    [(1.952, 2.048)]
  lowerIsBetter := false
  effect := 1 / 20
  descriptive := false

theorem roughMaths_logarithm : Logarithm roughMaths where
  inv a b ha hb := by
    have hsum : a + b ≠ 0 := (add_pos ha hb).ne'
    have hsum' : b + a ≠ 0 := (add_pos hb ha).ne'
    simp only [roughMaths]
    field_simp
    ring
  pos x hx := div_pos (by linarith) (by linarith)

/-- The two bands decide the nine blocks with exchanged roles alike. -/
theorem decidePairings_swapped_nine :
    decidePairings roughMaths (ratioBand roughMaths) (1 / 20) [ninePairs.swapped] =
        (decidePairings roughMaths (mirroredBand roughMaths) (1 / 20) [ninePairs]).map
          (List.map exchanged) ∧
    List.Forall₂ (fun d d' => SameEffect (exchanged d) d') [.inconclusive] [.equivalent] := by
  have heffect : ∀ pairing ∈ [ninePairs], 0 < pairing.effect := by
    simp only [List.mem_singleton, forall_eq]
    exact by norm_num [ninePairs]
  obtain ⟨hmirror, hsame⟩ :=
    decidePairings_swapped roughMaths_logarithm (1 / 20) [ninePairs] heffect
  exact ⟨hmirror, hsame _ _ (by decide +kernel) (by decide +kernel)⟩

/-- **The equivalence band is not symmetric.**  The nine blocks are inconclusive, and equivalent as
soon as arm and control exchange their roles. -/
theorem decidePairings_not_symmetric :
    decidePairings roughMaths (ratioBand roughMaths) (1 / 20) [ninePairs] = .ok [.inconclusive] ∧
    decidePairings roughMaths (ratioBand roughMaths) (1 / 20) [ninePairs.swapped] =
      .ok [.equivalent] := by
  decide +kernel

end SchedAnalysis

end LinuxSched

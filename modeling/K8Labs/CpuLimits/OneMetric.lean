import K8Labs.CpuLimits.Analyze
import K8Labs.CpuLimits.RowOrder
import K8Labs.LinuxSched.Contrast

/-!
# The metric of a contrast

`analyze` chooses the metric of a contrast cell by cell and keeps the orientation of the last cell.
A contrast is sound (`OneMetric`) when both cells of every pair were compared by one metric and the
verdict is oriented as that metric is.

* `analyze_oneMetric_iff`: **all contrasts are sound exactly when the cells of each of them that are
  paired agree on whether they report a latency, and with the last cell where there is a verdict.**
-/

namespace CpuLimits

open Py

section OneMetric

variable (maths : Maths ℚ) (phase : String) (cells : List Cell) (family : Family)
  (workload : String)

/-- The two cells of a paired block, with what was compared of them. -/
structure Compared (sides : Sides) (block : String) (control treatment : Cell)
    (controlFound treatmentFound : Outcome) : Prop where
  controlCell : lastCell cells family workload family.controlPolicy block = some control
  treatmentCell : lastCell cells family workload family.treatmentPolicy block = some treatment
  controlOutcome : outcome control family.name = .ok controlFound
  treatmentOutcome : outcome treatment family.name = .ok treatmentFound
  controlValue : sides.control.lookup block = some controlFound.value
  treatmentValue : sides.treatment.lookup block = some treatmentFound.value

/-- Every ratio of the contrast compares one metric, and a verdict has its orientation. -/
def OneMetric : Prop :=
  ∃ sides paired, gather family workload cells = .ok sides ∧
    pairs maths phase family sides = .ok paired ∧
    ∀ block ∈ paired.pairedBlocks, ∃ control treatment controlFound treatmentFound,
      Compared cells family workload sides block control treatment controlFound treatmentFound ∧
      controlFound.metric = treatmentFound.metric ∧
      (¬ Incomplete paired → sides.lowerIsBetter = controlFound.lowerIsBetter)

/-- The cells of the contrast agree: in every block in which both arms have a value, both cells
report a latency or neither does, and where the contrast is decided the last of all its cells does
as they do. -/
def Agree : Prop :=
  ∀ block control treatment,
    lastCell cells family workload family.controlPolicy block = some control →
    lastCell cells family workload family.treatmentPolicy block = some treatment →
    (measured control family.name).value.isSome → (measured treatment family.name).value.isSome →
    reportsLatency control = reportsLatency treatment ∧
      (Decided cells family workload → ∀ last,
        (concerned cells family workload).getLast? = some last →
          reportsLatency last = reportsLatency control)

variable {maths phase cells family workload}

theorem mem_armCells_of_lastCell {policy block : String} {cell : Cell}
    (h : lastCell cells family workload policy block = some cell) :
    cell ∈ concerned cells family workload := by
  have hmem := List.mem_of_getLast? h
  rw [Dict.mem_share] at hmem
  exact (List.mem_filter.1 hmem.1).1

/-- The cells of a block that has values in both arms. -/
theorem exists_compared {sides : Sides} {block : String}
    (hsides : gather family workload cells = .ok sides)
    (hcontrol : (valueAt sides.control block).isSome)
    (htreatment : (valueAt sides.treatment block).isSome) :
    ∃ control treatment, (measured control family.name).value.isSome ∧
      (measured treatment family.name).value.isSome ∧
      Compared cells family workload sides block control treatment (measured control family.name)
        (measured treatment family.name) := by
  obtain ⟨hfields, rfl⟩ := gather_eq_ok.1 hsides
  have hcell : ∀ policy, (valueIn cells family workload policy block).isSome → ∃ cell,
      lastCell cells family workload policy block = some cell ∧
        (measured cell family.name).value.isSome := by
    intro policy h
    rw [valueIn] at h
    rcases hlast : lastCell cells family workload policy block with _ | cell
    · rw [hlast] at h
      cases h
    · rw [hlast] at h
      exact ⟨cell, rfl, h⟩
  rw [valueAt_control] at hcontrol
  rw [valueAt_treatment] at htreatment
  obtain ⟨control, hlast, hvalue⟩ := hcell _ hcontrol
  obtain ⟨treatment, hlast', hvalue'⟩ := hcell _ htreatment
  refine ⟨control, treatment, hvalue, hvalue', hlast, hlast',
    outcome_eq_ok.2 ⟨hfields _ (mem_armCells_of_lastCell hlast), rfl⟩,
    outcome_eq_ok.2 ⟨hfields _ (mem_armCells_of_lastCell hlast'), rfl⟩, ?_, ?_⟩
  · rw [sidesOf, Dict.lookup_index_eq_getLast?]
    exact congrArg (Option.map _) hlast
  · rw [sidesOf, Dict.lookup_index_eq_getLast?]
    exact congrArg (Option.map _) hlast'

theorem metric_measured (hfamily : family.name ≠ "throttle_gap") {a b : Cell} :
    (measured a family.name).metric = (measured b family.name).metric ↔
      reportsLatency a = reportsLatency b := by
  rw [measured, measured, if_neg hfamily, if_neg hfamily]
  cases reportsLatency a <;> cases reportsLatency b <;> simp

theorem lowerIsBetter_measured (hfamily : family.name ≠ "throttle_gap") {cell : Cell} :
    (measured cell family.name).lowerIsBetter = reportsLatency cell := by
  rw [measured, if_neg hfamily]
  cases reportsLatency cell <;> rfl

/-- The throttle ratio is always compared with a throttle ratio. -/
theorem measured_throttle (hfamily : family.name = "throttle_gap") (cell : Cell) :
    (measured cell family.name).metric = "throttled_period_ratio" ∧
      (measured cell family.name).lowerIsBetter = false := by
  rw [measured, if_pos hfamily]
  exact ⟨rfl, rfl⟩

theorem valueAt_keepPositive {values : List (String × Option ℚ)} {block : String} :
    valueAt (keepPositive values) block =
      (valueAt values block).filter fun value => 0 < value := by
  rw [valueAt, valueAt, keepPositive]
  induction values with
  | nil => rfl
  | cons entry values ih =>
    obtain ⟨key, value⟩ := entry
    rw [List.map_cons, Dict.lookup_cons, Dict.lookup_cons]
    split_ifs
    · rfl
    · exact ih

/-- A paired block has values in both arms. -/
theorem usable_of_mem_pairedBlocks {sides : Sides} {paired : PairedLogRatios} {block : String}
    (h : pairs maths phase family sides = .ok paired) (hblock : block ∈ paired.pairedBlocks) :
    (valueAt sides.control block).isSome ∧ (valueAt sides.treatment block).isSome := by
  rw [pairs] at h
  split_ifs at h
  · obtain ⟨-, rfl⟩ := pairedLogRatios_eq_ok.1 h
    have husable := (List.mem_filter.1 hblock).2
    rw [usable, valueAt_keepPositive, valueAt_keepPositive, Bool.and_eq_true] at husable
    exact husable.imp (Option.isSome_of_isSome_filter _ _) (Option.isSome_of_isSome_filter _ _)
  · obtain ⟨-, rfl⟩ := pairedLogRatios_eq_ok.1 h
    have husable := (List.mem_filter.1 hblock).2
    rwa [usable, Bool.and_eq_true] at husable

theorem oneMetric_throttle (hfamily : family.name = "throttle_gap") {row : Contrast}
    (h : contrastOf maths phase cells family workload = .ok row) :
    OneMetric maths phase cells family workload := by
  obtain ⟨sides, paired, hsides, hpaired, -⟩ := contrastOf_eq_ok h
  refine ⟨sides, paired, hsides, hpaired, fun block hblock => ?_⟩
  obtain ⟨hcontrol, htreatment⟩ := usable_of_mem_pairedBlocks hpaired hblock
  obtain ⟨control, treatment, -, -, hcompared⟩ := exists_compared hsides hcontrol htreatment
  refine ⟨control, treatment, _, _, hcompared, ?_, fun _ => ?_⟩
  · rw [(measured_throttle hfamily control).1, (measured_throttle hfamily treatment).1]
  · obtain ⟨-, rfl⟩ := gather_eq_ok.1 hsides
    rw [(measured_throttle hfamily control).2, sidesOf]
    rcases (concerned cells family workload).getLast? with _ | last
    · rfl
    · exact (measured_throttle hfamily last).2

theorem oneMetric_iff_agree (hfamily : family.name ≠ "throttle_gap") {row : Contrast}
    (h : contrastOf maths phase cells family workload = .ok row) :
    OneMetric maths phase cells family workload ↔ Agree cells family workload := by
  obtain ⟨sides, paired, hsides, hpaired, -⟩ := contrastOf_eq_ok h
  obtain ⟨-, rfl⟩ := gather_eq_ok.1 hsides
  have hplain : pairedLogRatios maths (sidesOf cells family workload).control
      (sidesOf cells family workload).treatment = .ok paired := by
    rwa [pairs, if_neg fun hand => hfamily hand.2] at hpaired
  -- the orientation is that of the last cell, whichever blocks are paired
  have horientation : ∀ last, (concerned cells family workload).getLast? = some last →
      (sidesOf cells family workload).lowerIsBetter = reportsLatency last := by
    intro last hlast
    rw [sidesOf, hlast, ← lowerIsBetter_measured hfamily]
    rfl
  have hpairedBlocks : ∀ block, block ∈ paired.pairedBlocks ↔
      (valueAt (sidesOf cells family workload).control block).isSome ∧
        (valueAt (sidesOf cells family workload).treatment block).isSome := by
    intro block
    refine ⟨usable_of_mem_pairedBlocks hpaired, fun hand => ?_⟩
    obtain ⟨value, hvalue⟩ := Option.isSome_iff_exists.1 hand.1
    obtain ⟨-, rfl⟩ := pairedLogRatios_eq_ok.1 hplain
    exact List.mem_filter.2 ⟨mem_allBlocks_of_valueAt hvalue, by
      rw [usable, Bool.and_eq_true]
      exact hand⟩
  constructor
  · rintro ⟨sides', paired', hsides', hpaired', hall⟩ block control treatment hcontrol htreatment
      hvalue hvalue'
    cases hsides.symm.trans hsides'
    cases hpaired.symm.trans hpaired'
    have hblock : block ∈ paired.pairedBlocks := by
      rw [hpairedBlocks, valueAt_control, valueAt_treatment, valueIn, valueIn, hcontrol, htreatment]
      exact ⟨hvalue, hvalue'⟩
    obtain ⟨c, t, cFound, tFound, hcompared, hmetric, hlower⟩ := hall block hblock
    cases hcontrol.symm.trans hcompared.controlCell
    cases htreatment.symm.trans hcompared.treatmentCell
    obtain ⟨-, rfl⟩ := outcome_eq_ok.1 hcompared.controlOutcome
    obtain ⟨-, rfl⟩ := outcome_eq_ok.1 hcompared.treatmentOutcome
    refine ⟨(metric_measured hfamily).1 hmetric, fun hdecided last hlast => ?_⟩
    rw [← horientation last hlast, hlower ((not_incomplete_iff hplain).2 hdecided),
      lowerIsBetter_measured hfamily]
  · intro hagree
    refine ⟨_, paired, hsides, hpaired, fun block hblock => ?_⟩
    obtain ⟨hcontrol, htreatment⟩ := (hpairedBlocks block).1 hblock
    obtain ⟨control, treatment, hvalue, hvalue', hcompared⟩ :=
      exists_compared hsides hcontrol htreatment
    obtain ⟨hreports, hlast⟩ := hagree block control treatment hcompared.controlCell
      hcompared.treatmentCell hvalue hvalue'
    refine ⟨control, treatment, _, _, hcompared, (metric_measured hfamily).2 hreports,
      fun hcomplete => ?_⟩
    have hne : concerned cells family workload ≠ [] :=
      List.ne_nil_of_mem (mem_armCells_of_lastCell hcompared.controlCell)
    obtain ⟨last, hfound⟩ := Option.isSome_iff_exists.1 (List.getLast?_isSome.2 hne)
    rw [horientation last hfound, lowerIsBetter_measured hfamily]
    exact hlast ((not_incomplete_iff hplain).1 hcomplete) last hfound

/-- **When every contrast is sound**: the cells of a contrast of a performance family agree on what
they report. -/
theorem analyze_oneMetric_iff {campaign : Campaign} {result : Analysis}
    (h : analyze maths campaign phase = .ok result) :
    (∀ entry ∈ planned campaign.cells,
      OneMetric maths phase campaign.cells entry.1 entry.2) ↔
    ∀ entry ∈ planned campaign.cells, entry.1.name ≠ "throttle_gap" →
      Agree campaign.cells entry.1 entry.2 := by
  refine forall_congr' fun entry => forall_congr' fun hentry => ?_
  obtain ⟨row, hrow⟩ := exists_contrastOf h hentry
  by_cases hfamily : entry.1.name = "throttle_gap"
  · exact iff_of_true (oneMetric_throttle hfamily hrow) fun hne => absurd hfamily hne
  · rw [oneMetric_iff_agree hfamily hrow]
    exact ⟨fun hagree _ => hagree, fun hagree => hagree hfamily⟩

end OneMetric

/-! ### A latency against a throughput -/

/-- The records of three blocks. -/
def soloRecords (record : String → List (List String)) : List (List String) :=
  ["1", "2", "3"].flatMap record

/-- The cell of an I/O-bound workload under a policy. -/
def soloCell (policy : String) : String := "io-bound-" ++ policy ++ "-solo"

/-- A row of a cgroup table. -/
def cgroupRecord (block cell : String) : List String :=
  ["cpu-limits-v1", "run-1", block, cell, "2026-10-24T00:00:15Z", "end", "container_leaf",
    "/kubepods/test", "cpu.weight", "100", "weight"]

/-- A row of a metric table. -/
def metricRecord (block cell metric value : String) : List String :=
  ["cpu-limits-v1", "run-1", block, cell, "2026-10-24T00:00:15Z", "workload", metric, value, "unit",
    "\x7b\x7d"]

/-- The blocks of a campaign of two policies. -/
def soloBlocks : CsvFile where
  path := "blocks.csv"
  table :=
    { header := blockColumns
      records := soloRecords fun block => ["fit", "burstable-low"].map fun policy =>
        blockRecord block (soloCell policy) "io-bound" policy "solo" "complete" }

/-- Its cgroups. -/
def soloCgroups : CsvFile where
  path := "cgroups.csv"
  table :=
    { header := cgroupColumns
      records := soloRecords fun block => ["fit", "burstable-low"].map fun policy =>
        cgroupRecord block (soloCell policy) }

/-- Its metrics: the control reports a latency, the treatment only requests. -/
def mixedMetrics : CsvFile where
  path := "metrics.csv"
  table :=
    { header := metricColumns
      records := soloRecords fun block =>
        [metricRecord block (soloCell "fit") "latency_p99_ms" "8",
          metricRecord block (soloCell "burstable-low") "requests_per_second" "10"] }

/-- A cell of the campaign. -/
def mixedCell (block policy : String) (throughput latency : Option ℚ) (metric : String × ℚ) :
    Cell where
  blockId := some block
  cellId := some (soloCell policy)
  workload := some "io-bound"
  policy := some policy
  condition := some "solo"
  cgroup := some
    { cpuUsageSeconds := none
      quotaUtilization := none
      throttledPeriodRatio := none
      throttledTimeSeconds := none
      psiSomeSeconds := none
      psiFullSeconds := none }
  throughput := throughput
  latencyP99Ms := latency
  metrics := [metric]
  cgroupParameters := [("cpu.weight", "100")]

/-- The campaign that is loaded. -/
def mixedCampaign : Campaign where
  cells := ["1", "2", "3"].flatMap fun block =>
    [mixedCell block "burstable-low" (some 10) none ("requests_per_second", 10),
      mixedCell block "fit" none (some 8) ("latency_p99_ms", 8)]
  incompleteCells := []

/-- The contrast of the two policies. -/
def limitEffect : Family where
  name := "limit_effect"
  controlPolicy := "fit"
  treatmentPolicy := "burstable-low"
  condition := "solo"
  margin := performanceMargin
  plannedSize := 4

theorem loadCampaign_mixed :
    loadCampaign soloBlocks soloCgroups mixedMetrics "confirmatory" = .ok mixedCampaign := by
  decide +kernel

theorem exists_analyze_mixed :
    ∃ result, analyze LinuxSched.roughMaths mixedCampaign "confirmatory" = .ok result := by
  have h : okAnd (analyze LinuxSched.roughMaths mixedCampaign "confirmatory") (fun _ => true) =
      true := by decide +kernel
  obtain ⟨result, hresult, -⟩ := okAnd_eq_true.1 h
  exact ⟨result, hresult⟩

theorem mem_planned_mixed : (limitEffect, "io-bound") ∈ planned mixedCampaign.cells := by
  have hworkloads : workloads mixedCampaign.cells = ["io-bound"] := by decide +kernel
  rw [planned, hworkloads]
  exact List.mem_flatMap.2 ⟨limitEffect, List.mem_cons_self, List.mem_cons_self⟩

/-- Of its pairs one side is a latency, the other a rate. -/
theorem not_oneMetric_mixed : ¬ ∀ entry ∈ planned mixedCampaign.cells,
    OneMetric LinuxSched.roughMaths "confirmatory" mixedCampaign.cells entry.1 entry.2 := by
  intro hall
  obtain ⟨result, hresult⟩ := exists_analyze_mixed
  obtain ⟨row, hrow⟩ := exists_contrastOf hresult mem_planned_mixed
  have hagree := (oneMetric_iff_agree (by decide) hrow).1 (hall _ mem_planned_mixed)
  have hcontrol : lastCell mixedCampaign.cells limitEffect "io-bound" "fit" "1" =
      some (mixedCell "1" "fit" none (some 8) ("latency_p99_ms", 8)) := by decide +kernel
  have htreatment : lastCell mixedCampaign.cells limitEffect "io-bound" "burstable-low" "1" =
      some (mixedCell "1" "burstable-low" (some 10) none ("requests_per_second", 10)) := by
    decide +kernel
  exact absurd (hagree "1" _ _ hcontrol htreatment (by decide) (by decide)).1 (by decide)

/-- What the criterion says about the campaign: its cells do not agree. -/
theorem analyze_oneMetric_iff_mixed : ¬ ∀ entry ∈ planned mixedCampaign.cells,
    entry.1.name ≠ "throttle_gap" → Agree mixedCampaign.cells entry.1 entry.2 := by
  obtain ⟨result, hresult⟩ := exists_analyze_mixed
  exact fun hagree => not_oneMetric_mixed ((analyze_oneMetric_iff hresult).2 hagree)

/-- **A latency is divided into a rate.**  The campaign is accepted, its contrast reported as one of
latencies, and judged a regression. -/
theorem analyze_mixes_metrics :
    loadCampaign soloBlocks soloCgroups mixedMetrics "confirmatory" = .ok mixedCampaign ∧
    (∃ result, analyze LinuxSched.roughMaths mixedCampaign "confirmatory" = .ok result ∧
      ∃ row ∈ result.contrasts, row.family = "limit_effect" ∧ row.metric = "latency_p99_ms" ∧
        row.pairedBlocks = ["1", "2", "3"] ∧
        row.estimated.map Estimate.decision = some .regression) ∧
    ¬ ∀ entry ∈ planned mixedCampaign.cells,
      OneMetric LinuxSched.roughMaths "confirmatory" mixedCampaign.cells entry.1 entry.2 := by
  refine ⟨loadCampaign_mixed, ?_, not_oneMetric_mixed⟩
  have h : okAnd (analyze LinuxSched.roughMaths mixedCampaign "confirmatory") (fun result =>
      ∃ row ∈ result.contrasts, row.family = "limit_effect" ∧ row.metric = "latency_p99_ms" ∧
        row.pairedBlocks = ["1", "2", "3"] ∧
        row.estimated.map Estimate.decision = some .regression) = true := by decide +kernel
  obtain ⟨result, hresult, hrow⟩ := okAnd_eq_true.1 h
  exact ⟨result, hresult, of_decide_eq_true hrow⟩

end CpuLimits

import K8Labs.Phase8.Loadgen
import K8Labs.Phase8.Slo

/-!
# From a report to a verdict

The part of `research/cpu-limits/phase8/campaign/pilot.py` between the load generator's report and
the verdict: `deriveCpuMetrics` turns two readings of the cgroup counters into rates, and
`observationFrom` builds the observation that `verdict` judges.

Two things of `observation_from` decide what the pilot records.  It takes `target_reached` and does
not hand it on, so that the verdict on a run invalid for failed requests is `invalid` although the
reason's share is read back exactly (`failed_run_judged_invalid`).  And it binds the availability
only when something completed, so that it returns exactly on those reports
(`observationFrom_isOk_iff`).
-/

namespace Phase8

open Py (Items Value)

/-! ### CPU metrics -/

/-- One reading of the container's cgroup CPU accounting. -/
structure CgroupSample where
  atSeconds : ℚ
  nrPeriods : ℤ
  nrThrottled : ℤ
  throttledUsec : ℤ
  usageUsec : ℤ

/-- The dictionary of CPU rates. -/
abbrev CpuMetrics := List (String × Py.Float)

/-- `USEC_PER_SECOND`. -/
def usecPerSecond : ℚ := 1000000

/-- `derive_cpu_metrics`; a failure is the message of a `KubernetesError`. -/
def deriveCpuMetrics (before after : CgroupSample) (limit : ℤ) : Except String CpuMetrics :=
  let elapsed := after.atSeconds - before.atSeconds
  if elapsed ≤ 0 then .error "cgroup samples are not ordered in time"
  else
    let throttled : ℤ := after.throttledUsec - before.throttledUsec
    let usage : ℤ := after.usageUsec - before.usageUsec
    let periods : ℤ := after.nrPeriods - before.nrPeriods
    if throttled < 0 ∨ usage < 0 ∨ periods < 0 then
      .error "cgroup counters decreased; the container was replaced"
    else
      .ok [("throttle_ratio", .fin (min 1 (throttled / (elapsed * usecPerSecond)))),
        ("throttled_ms_per_second", .fin (throttled / elapsed / 1000)),
        ("cpu_usage_millicores", .fin (usage / elapsed / 1000)),
        ("cpu_limit_millicores", .fin limit),
        ("periods", .fin periods),
        ("periods_throttled", .fin ((after.nrThrottled - before.nrThrottled : ℤ))),
        ("elapsed_seconds", .fin elapsed)]

/-! ### The observation -/

/-- `float(d[key]) if key in d else None`. -/
def optionalFloat (d : Value) (key : String) : Except Py.Exc (Option Py.Float) :=
  (d.contains key).bind fun present =>
    if present then (d.index key).bind fun v => v.toFloat.map some else .ok none

/-- `observation_from`.  `target_reached` is an argument that no field of the result receives, and
`availability` is unbound when nothing completed. -/
def observationFrom (loadgen : Items) (cpu : CpuMetrics) (_targetReached : Option Bool) :
    Except Py.Exc CellObservation :=
  let latency := (loadgen.get "latency_ms").orElse (.dict [])
  ((loadgen.lookup "completed").getD (.int 0)).toInt.bind fun completed =>
  ((loadgen.lookup "errors").getD (.int 0)).toInt.bind fun errors =>
  let availability : Option ℚ := if 0 < completed then some (1 - (errors : ℚ) / completed) else none
  (optionalFloat latency "p50").bind fun p50 =>
  (optionalFloat latency "p99").bind fun p99 =>
  (optionalFloat (.dict loadgen) "achieved_rate_rps").bind fun throughput =>
  (optionalFloat (.dict loadgen) "error_ratio").bind fun errorRatio =>
  match availability with
  | none => .error ⟨.unboundLocalError,
      "cannot access local variable 'availability' where it is not associated with a value"⟩
  | some availability =>
    .ok
      { p50LatencyMs := p50
        p99LatencyMs := p99
        throughputRps := throughput
        errorRatio := errorRatio
        availabilityRatio := some (.fin availability)
        cpuUsageMillicores := cpu.lookup "cpu_usage_millicores"
        throttledMsPerSecond := cpu.lookup "throttled_ms_per_second"
        completedRequests := completed
        loadgenValid := ((loadgen.lookup "valid").getD (.bool false)).truthy
        loadgenInvalidReason := ((loadgen.get "invalid_reason").orElse (.str "")).text
        targetReached := none }

/-! ### Reports of the generator -/

/-- The text of the invalid reason an observation carries. -/
def Report.reasonText (r : Report) : String := r.invalidReason.getD ""

/-- The observation of a report in which something completed. -/
def Report.observation (r : Report) (cpu : CpuMetrics) : CellObservation where
  p50LatencyMs := some (.fin r.latencyMs.p50)
  p99LatencyMs := some (.fin r.latencyMs.p99)
  throughputRps := some (.fin r.achievedRateRps)
  errorRatio := some (.fin r.errorRatio)
  availabilityRatio := some (.fin (1 - (r.errors : ℚ) / r.completed))
  cpuUsageMillicores := cpu.lookup "cpu_usage_millicores"
  throttledMsPerSecond := cpu.lookup "throttled_ms_per_second"
  completedRequests := r.completed
  loadgenValid := r.valid
  loadgenInvalidReason := r.reasonText
  targetReached := none

theorem text_reason (r : Report) :
    ((r.toItems.get "invalid_reason").orElse (.str "")).text = r.reasonText := by
  have hget : r.toItems.get "invalid_reason" = (r.invalidReason.map Value.str).getD .none := rfl
  rw [hget, Report.reasonText]
  cases r.invalidReason with
  | none => rfl
  | some reason =>
    by_cases h : reason = ""
    · rw [h]
      rfl
    · have htrue : (Value.str reason).truthy = true := by simpa [Value.truthy] using h
      simp only [Option.map_some, Option.getD_some, Value.orElse, htrue, if_true, Value.text,
        Py.Scalar.text]

/-- What `observation_from` does on a report of the generator. -/
theorem observationFrom_report (r : Report) (cpu : CpuMetrics) (reached : Option Bool) :
    observationFrom r.toItems cpu reached =
      if 0 < r.completed then .ok (r.observation cpu)
      else .error ⟨.unboundLocalError,
        "cannot access local variable 'availability' where it is not associated with a value"⟩ := by
  have hcompleted : (r.toItems.lookup "completed").getD (.int 0) = .int r.completed := rfl
  have herrors : (r.toItems.lookup "errors").getD (.int 0) = .int r.errors := rfl
  have hlatency : (r.toItems.get "latency_ms").orElse (.dict []) = .dict r.latencyMs.toItems := rfl
  have hp50 : optionalFloat (.dict r.latencyMs.toItems) "p50" = .ok (some (.fin r.latencyMs.p50)) :=
    rfl
  have hp99 : optionalFloat (.dict r.latencyMs.toItems) "p99" = .ok (some (.fin r.latencyMs.p99)) :=
    rfl
  have hrate : optionalFloat (.dict r.toItems) "achieved_rate_rps" =
      .ok (some (.fin r.achievedRateRps)) := rfl
  have hratio : optionalFloat (.dict r.toItems) "error_ratio" = .ok (some (.fin r.errorRatio)) :=
    rfl
  have hvalid : ((r.toItems.lookup "valid").getD (.bool false)).truthy = r.valid := rfl
  simp only [observationFrom, hcompleted, herrors, hlatency, hp50, hp99, hrate, hratio, hvalid,
    text_reason, Value.toInt, Except.bind, Nat.cast_pos]
  split_ifs with h <;> rfl

/-- An observation of a report is made exactly when something completed. -/
theorem observationFrom_isOk_iff (r : Report) (cpu : CpuMetrics) (reached : Option Bool) :
    (∃ o, observationFrom r.toItems cpu reached = .ok o) ↔ 0 < r.completed := by
  rw [observationFrom_report]
  split_ifs with h <;> simp [h]

/-! ### Judging the observation -/

theorem defaultShare_unit :
    ¬ ¬ ((0 : ℚ) ≤ defaultInvalidErrorShare ∧ defaultInvalidErrorShare ≤ 1) := by
  norm_num [defaultInvalidErrorShare]

/-- A run declared invalid stays `invalid` when the target is not known to be reached. -/
theorem invalidVerdict_unreached {o : CellObservation} (ho : o.targetReached = none) (share : ℚ) :
    ∃ text, invalidVerdict o share = .ok (.invalid, text) := by
  have hshare : serviceBreachShare o = .ok none := by simp [serviceBreachShare, ho]
  by_cases h : o.completedRequests < 1
  · exact ⟨_, if_pos h⟩
  · simp only [invalidVerdict, if_neg h, hshare, Except.bind]
    exact ⟨_, rfl⟩

/-- A complete observation is judged. -/
theorem validVerdict_isOk (o : CellObservation) (slo : Slo) :
    ∃ out, validVerdict o slo Field.required = .ok out := by
  rw [validVerdict]
  split_ifs with hcompleted hmissing
  · exact ⟨_, rfl⟩
  · exact ⟨_, rfl⟩
  · -- no required field is missing, so the assertions hold
    have hsome : ∀ f ∈ Field.required, ∃ x, o.get f = some x := by
      intro f hf
      rw [← Option.isSome_iff_exists]
      rw [not_not, CellObservation.missingFields, List.map_eq_nil_iff,
        List.filter_eq_nil_iff] at hmissing
      simpa [Option.isSome_iff_ne_none] using hmissing f hf
    obtain ⟨p99, h₁⟩ := hsome .p99LatencyMs (by decide)
    obtain ⟨throughput, h₂⟩ := hsome .throughputRps (by decide)
    obtain ⟨ratio, h₃⟩ := hsome .errorRatio (by decide)
    obtain ⟨availability, h₄⟩ := hsome .availabilityRatio (by decide)
    simp only [CellObservation.get] at h₁ h₂ h₃ h₄
    rw [h₁, h₂, h₃, h₄]
    simp only
    split
    · exact ⟨_, rfl⟩
    · split_ifs
      · exact ⟨_, rfl⟩
      · exact ⟨_, rfl⟩

/-- `verdict` does not raise on an observation whose target is not known to be reached. -/
theorem defaultVerdict_isOk {o : CellObservation} (ho : o.targetReached = none) (slo : Slo) :
    ∃ out, defaultVerdict o slo = .ok out := by
  rw [defaultVerdict, verdict, if_neg defaultShare_unit]
  split_ifs with hvalid
  · obtain ⟨text, h⟩ := invalidVerdict_unreached ho defaultInvalidErrorShare
    exact ⟨_, h⟩
  · exact validVerdict_isOk o slo

/-- The pilot's classification of a run is a breach, with the share of its reason recovered. -/
def JudgedAsBreach (r : Report) (cpu : CpuMetrics) (slo : Slo) : Prop :=
  ∃ o text, observationFrom r.toItems cpu (some true) = .ok o ∧
    failedRequestShare o.loadgenInvalidReason = .ok (some ((r.errors : ℚ) / r.completed)) ∧
    defaultVerdict o slo = .ok (.breachesSlo, text)

/-- **No run that lost most of its requests is judged a breach.**  The share is recovered from the
reason, and with the target marked as reached the same observation would be a breach; but the
observation does not carry the mark, and the verdict is `invalid`. -/
theorem failed_run_judged_invalid {summarize : List ℕ → Option LatencySummary} {args : Args}
    {outcomes : Outcomes} {elapsed : ℚ} {r : Report}
    (h : report summarize args outcomes elapsed = some r) (hvalid : r.valid = false)
    (hcompleted : 1 ≤ r.completed) (hhalf : 1 / 2 < (r.errors : ℚ) / r.completed)
    (hreason : r.invalidReason = some (failedReason r.errors r.completed)) (cpu : CpuMetrics)
    (slo : Slo) :
    ¬ JudgedAsBreach r cpu slo ∧
      ∃ o, observationFrom r.toItems cpu (some true) = .ok o ∧
        failedRequestShare o.loadgenInvalidReason = .ok (some ((r.errors : ℚ) / r.completed)) ∧
        (∃ text, defaultVerdict o slo = .ok (.invalid, text)) ∧
        ∃ text, defaultVerdict { o with targetReached := some true } slo =
          .ok (.breachesSlo, text) := by
  have hp := printed_of_report h
  have hobs := observationFrom_report r cpu (some true)
  rw [if_pos (show 0 < r.completed from hcompleted)] at hobs
  have htext : (r.observation cpu).loadgenInvalidReason = failedReason r.errors r.completed := by
    simp only [Report.observation, Report.reasonText, hreason, Option.getD_some]
  have hshare : failedRequestShare (failedReason r.errors r.completed) =
      .ok (some ((r.errors : ℚ) / r.completed)) :=
    failedRequestShare_reason hcompleted (hp.errors_le.trans_lt hp.completed_lt) hp.completed_lt _
  obtain ⟨text, hinvalid⟩ : ∃ text, defaultVerdict (r.observation cpu) slo =
      .ok (.invalid, text) := by
    obtain ⟨text, ht⟩ := invalidVerdict_unreached (o := r.observation cpu) rfl
      defaultInvalidErrorShare
    refine ⟨text, ?_⟩
    rw [defaultVerdict, verdict, if_neg defaultShare_unit,
      if_pos (by simp [Report.observation, hvalid])]
    exact ht
  -- the same observation with the mark that the caller knows and does not pass on
  have hbreach : ∃ text, defaultVerdict { r.observation cpu with targetReached := some true } slo =
      .ok (.breachesSlo, text) := by
    have hmark : serviceBreachShare { r.observation cpu with targetReached := some true } =
        .ok (some ((r.errors : ℚ) / r.completed)) := by
      simp only [serviceBreachShare, htext, hshare]
      simp [Report.observation, hvalid]
    rw [defaultVerdict, verdict, if_neg defaultShare_unit,
      if_pos (by simp [Report.observation, hvalid])]
    simp only [invalidVerdict, hmark, Except.bind]
    rw [if_neg (by simp only [Report.observation]; omega)]
    exact ⟨_, if_pos hhalf.le⟩
  refine ⟨?_, _, hobs, by rw [htext, hshare], ⟨text, hinvalid⟩, hbreach⟩
  rintro ⟨o, text', ho, -, hv⟩
  obtain rfl := Except.ok.inj (hobs.symm.trans ho)
  rw [hinvalid] at hv
  cases hv

/-! ### A starved cell -/

/-- A run of four requests in four seconds at one request a second, three of them failed. -/
def starvedOutcomes : Outcomes where
  toList := [⟨900, false, 0⟩, ⟨900, false, 0⟩, ⟨900, false, 0⟩, ⟨900, true, 0⟩]
  length_lt := by decide

/-- The report of the starved run, with every latency summarised to 900 ms. -/
def starvedReport : Report :=
  reportOf ⟨"http://127.0.0.1:18080", .openLoop, 1, 8, 4, 0, .balanced⟩ starvedOutcomes 4
    ⟨900, 900, 900, 900, 900, 900, 900⟩

/-- An SLO of 100 ms, 45 requests a second, no errors and 99% availability. -/
def pilotSlo : Slo where
  maxP99LatencyMs := .fin 100
  minThroughputRps := .fin 45
  maxErrorRatio := .fin 0
  minAvailabilityRatio := .fin (99 / 100)
  latency_positive := by decide
  throughput_nonneg := by decide
  error_ratio_unit := by decide
  availability_unit := by decide +kernel

theorem starvedReport_printed :
    report (fun _ => some ⟨900, 900, 900, 900, 900, 900, 900⟩)
      ⟨"http://127.0.0.1:18080", .openLoop, 1, 8, 4, 0, .balanced⟩ starvedOutcomes 4 =
      some starvedReport := rfl

theorem failed_run_judged_invalid_starved :
    ¬ JudgedAsBreach starvedReport [] pilotSlo ∧
      ∃ o, observationFrom starvedReport.toItems [] (some true) = .ok o ∧
        failedRequestShare o.loadgenInvalidReason = .ok (some ((3 : ℕ) / (4 : ℕ))) ∧
        (∃ text, defaultVerdict o pilotSlo = .ok (.invalid, text)) ∧
        ∃ text, defaultVerdict { o with targetReached := some true } pilotSlo =
          .ok (.breachesSlo, text) :=
  failed_run_judged_invalid starvedReport_printed (by decide +kernel) (by decide)
    (by decide +kernel) (by decide +kernel) [] pilotSlo

/-- The starved run is reported as invalid for its failed requests, and the pilot does not judge it
a breach. -/
theorem starved_run_not_judged_breach :
    starvedReport.mode = .openLoop ∧ starvedReport.valid = false ∧ 1 ≤ starvedReport.completed ∧
      1 / 2 < (starvedReport.errors : ℚ) / starvedReport.completed ∧
      starvedReport.invalidReason =
        some (failedReason starvedReport.errors starvedReport.completed) ∧
      ¬ JudgedAsBreach starvedReport [] pilotSlo := by
  refine ⟨rfl, by decide +kernel, by decide, by decide +kernel, by decide +kernel, ?_⟩
  rintro ⟨o, text, ho, -, hv⟩
  rw [observationFrom_report, if_pos (by decide)] at ho
  obtain rfl := Except.ok.inj ho
  obtain ⟨text', ht⟩ := invalidVerdict_unreached (o := starvedReport.observation []) rfl
    defaultInvalidErrorShare
  rw [defaultVerdict, verdict, if_neg defaultShare_unit, if_pos (by decide +kernel), ht] at hv
  cases hv

end Phase8

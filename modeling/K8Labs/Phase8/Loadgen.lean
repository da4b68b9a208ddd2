import K8Labs.Python.Value

/-!
# The load generator's report

`research/cpu-limits/phase8/loadgen/src/main.rs` issues requests and prints a JSON report.
`report` is the part of `main` after the requests are done: the counts, the achieved rate, the
generator's own validity (`validity`) and the report, and `Report.toItems` is the dictionary that
`json.loads` makes of the printed text.

The latency histogram is a crate of its own; what it summarises the recorded latencies to is the
parameter `summarize`, with `none` when a latency is out of its bounds and recording panics.
Numbers are exact.
-/

namespace Phase8

/-- How requests are issued. -/
inductive Mode where
  | openLoop
  | closedLoop
  deriving DecidableEq

/-- The workload mix. -/
inductive Mix where
  | readHeavy
  | writeHeavy
  | balanced
  | cpuHeavy
  deriving DecidableEq

/-- The serialised name of a mode. -/
def Mode.text : Mode → String
  | openLoop => "open"
  | closedLoop => "closed"

/-- The serialised name of a mix. -/
def Mix.text : Mix → String
  | readHeavy => "read-heavy"
  | writeHeavy => "write-heavy"
  | balanced => "balanced"
  | cpuHeavy => "cpu-heavy"

/-- The arguments the report depends on. -/
structure Args where
  url : String
  mode : Mode
  rate : ℚ
  concurrency : ℕ
  durationSecs : ℕ
  warmupSecs : ℕ
  mix : Mix

/-- The outcome of one request. -/
structure RequestOutcome where
  latencyMs : ℚ
  ok : Bool
  scheduleSlipMs : ℚ

/-- The outcomes of a run; a vector's length is a 64-bit number. -/
structure Outcomes where
  toList : List RequestOutcome
  length_lt : toList.length < 2 ^ 64

/-- The latency summary of a report. -/
structure LatencySummary where
  min : ℚ
  p50 : ℚ
  p90 : ℚ
  p99 : ℚ
  p999 : ℚ
  max : ℚ
  mean : ℚ

/-- The report. -/
structure Report where
  mode : Mode
  mix : Mix
  url : String
  offeredRateRps : ℚ
  concurrency : ℕ
  durationSecs : ℕ
  warmupSecs : ℕ
  completed : ℕ
  errors : ℕ
  errorRatio : ℚ
  achievedRateRps : ℚ
  latencyMs : LatencySummary
  maxScheduleSlipMs : ℚ
  scheduleLagRatio : ℚ
  valid : Bool
  invalidReason : Option String

/-- The reason of a run that lost too many requests. -/
def failedReason (errors completed : ℕ) : String :=
  toString errors ++ " of " ++ toString completed ++ " requests failed" ++
    "; the load generator cannot characterise a failing target"

/-- The generator's validity and its reason. -/
def validity (mode : Mode) (rate achievedRate : ℚ) (completed errors : ℕ) :
    Bool × Option String :=
  match mode with
  | .openLoop =>
    let shortfall := 1 - achievedRate / rate
    if completed = 0 then (false, some "no requests completed in the measured window")
    else if 1 / 10 < shortfall then
      (false, some ("generator could not sustain the offered load: offered " ++
        Py.formatFixed 2 rate ++ " rps, achieved " ++ Py.formatFixed 2 achievedRate ++ " rps (" ++
        Py.formatFixed 1 (shortfall * 100) ++ "% short)"))
    else if 1 / 2 < (errors : ℚ) / completed then (false, some (failedReason errors completed))
    else (true, none)
  | .closedLoop =>
    if completed = 0 then (false, some "no requests completed in the measured window")
    else (true, none)

/-- `f64::round` of a latency, as recorded. -/
def recordedLatency (latencyMs : ℚ) : ℕ := max 1 ⌊latencyMs + 1 / 2⌋.toNat

/-- The report of the given outcomes, `elapsed` seconds after the warm-up. -/
def reportOf (args : Args) (outcomes : Outcomes) (elapsed : ℚ) (latency : LatencySummary) : Report :=
  let errors := outcomes.toList.countP fun o => !o.ok
  let completed := outcomes.toList.length
  let windowSecs := max elapsed (1 / 10 ^ 9)
  let achievedRate := (completed : ℚ) / windowSecs
  let verdict := validity args.mode args.rate achievedRate completed errors
  { mode := args.mode
    mix := args.mix
    url := args.url
    offeredRateRps := if args.mode = .openLoop then args.rate else 0
    concurrency := args.concurrency
    durationSecs := args.durationSecs
    warmupSecs := args.warmupSecs
    completed := completed
    errors := errors
    errorRatio := if completed = 0 then 1 else (errors : ℚ) / completed
    achievedRateRps := achievedRate
    latencyMs := latency
    maxScheduleSlipMs := outcomes.toList.foldl (fun slip o => max slip o.scheduleSlipMs) 0
    scheduleLagRatio := if args.mode = .openLoop then min (achievedRate / args.rate) 1 else 1
    valid := verdict.1
    invalidReason := verdict.2 }

/-- What `main` prints; `none` when the arguments are refused or the process panics. -/
def report (summarize : List ℕ → Option LatencySummary) (args : Args) (outcomes : Outcomes)
    (elapsed : ℚ) : Option Report :=
  if args.rate ≤ 0 ∧ args.mode = .openLoop then none
  else if args.concurrency = 0 ∧ args.mode = .closedLoop then none
  else
    (summarize (outcomes.toList.map fun o => recordedLatency o.latencyMs)).map
      (reportOf args outcomes elapsed)

/-- A number of the report as a JSON number with a fraction. -/
def num (q : ℚ) : Py.Value := .float (.fin q)

/-- The latency summary as a dictionary. -/
def LatencySummary.toItems (l : LatencySummary) : Py.Items :=
  [(.str "min", num l.min), (.str "p50", num l.p50), (.str "p90", num l.p90),
    (.str "p99", num l.p99), (.str "p999", num l.p999), (.str "max", num l.max),
    (.str "mean", num l.mean)]

/-- The report as the dictionary a reader of its JSON text gets. -/
def Report.toItems (r : Report) : Py.Items :=
  [(.str "mode", .str r.mode.text), (.str "mix", .str r.mix.text), (.str "url", .str r.url),
    (.str "offered_rate_rps", num r.offeredRateRps),
    (.str "concurrency", .int r.concurrency), (.str "duration_secs", .int r.durationSecs),
    (.str "warmup_secs", .int r.warmupSecs), (.str "completed", .int r.completed),
    (.str "errors", .int r.errors), (.str "error_ratio", num r.errorRatio),
    (.str "achieved_rate_rps", num r.achievedRateRps),
    (.str "latency_ms", .dict r.latencyMs.toItems),
    (.str "max_schedule_slip_ms", num r.maxScheduleSlipMs),
    (.str "schedule_lag_ratio", num r.scheduleLagRatio), (.str "valid", .bool r.valid),
    (.str "invalid_reason", (r.invalidReason.map Py.Value.str).getD .none)]

/-- What holds of every report the generator prints. -/
structure Report.Printed (r : Report) : Prop where
  errors_le : r.errors ≤ r.completed
  completed_lt : r.completed < 2 ^ 64
  validity_eq : ∃ rate, (r.valid, r.invalidReason) =
    validity r.mode rate r.achievedRateRps r.completed r.errors

theorem printed_of_report {summarize : List ℕ → Option LatencySummary} {args : Args}
    {outcomes : Outcomes} {elapsed : ℚ} {r : Report}
    (h : report summarize args outcomes elapsed = some r) : r.Printed := by
  obtain ⟨latency, rfl⟩ : ∃ latency, r = reportOf args outcomes elapsed latency := by
    rw [report] at h
    split at h
    · cases h
    · split at h
      · cases h
      · obtain ⟨latency, -, rfl⟩ := Option.map_eq_some_iff.1 h
        exact ⟨latency, rfl⟩
  exact ⟨List.countP_le_length, outcomes.length_lt, args.rate, rfl⟩

end Phase8

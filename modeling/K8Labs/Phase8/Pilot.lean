import K8Labs.Phase8.Observation
import K8Labs.Phase8.RenderCell

/-!
# The bounded pilot

`main` of `research/cpu-limits/phase8/campaign/pilot.py` on the planned limits.  `planPilot` is what
it checks and computes before the first cell, `Pilot.turn` is one iteration of the loop over the
limits and `Pilot.loop` the loop.  The cluster enters as data: the worker nodes with their
capacities, and for each limit a `Turn` that says whether the deadline had passed and what measuring
the cell brought, a failure or a report of the load generator with the two cgroup readings.

A turn of the loop records a cell for its limit exactly when the report it reads has a completed
request, and a run whose reports all have one aborts on failures from before the report only
(`pilot_records_iff_completed`).  Every planned cell renders exactly when no planned quantity has a
single digit (`planned_limits_render_iff`).
-/

namespace Phase8

open Py (Items Value)

/-! ### Exceptions -/

/-- An exception that reaches `main`. -/
inductive PilotExc where
  | kubernetesError (message : String)
  | builtin (e : Py.Exc)
  | renderFailure (failure : RenderFailure)
  | systemExit (message : String)
  /-- Any other class, such as `subprocess.TimeoutExpired` or a YAML error. -/
  | other (cls message : String)
  deriving DecidableEq

namespace PilotExc

/-- `except (KubernetesError, OSError, RuntimeError)`; a `RenderError` is a plain `Exception`. -/
def caught : PilotExc → Bool
  | kubernetesError _ => true
  | builtin e => e.caughtBy [.osError, .runtimeError]
  | _ => false

/-- `str(error)`. -/
def text : PilotExc → String
  | kubernetesError message => message
  | builtin e => e.message
  | renderFailure (.renderError message) => message
  | renderFailure (.keyError name) => "'" ++ name ++ "'"
  | renderFailure (.valueError message) => message
  | systemExit message => message
  | other _ message => message

end PilotExc

/-! ### Planning -/

/-- The arguments of the pilot that the plan depends on. -/
structure PilotArgs where
  mix : String
  rate : Py.Float
  sloP99Ms : Py.Float
  sloMinRps : Option Py.Float
  sloMaxErrorRatio : Py.Float
  sloMinAvailability : Py.Float
  minLimitMillicores : ℤ
  maxLimitMillicores : ℤ
  growth : Py.Float
  maxCells : ℤ
  deadlineSeconds : Py.Float
  cpuRequestMillicores : Option ℤ
  cpuIterations : ℤ

/-- `Slo(...)` with its `__post_init__`. -/
def Slo.make (maxP99LatencyMs minThroughputRps maxErrorRatio minAvailabilityRatio : Py.Float) :
    Except Py.Exc Slo :=
  if h₁ : maxP99LatencyMs.le (.fin 0) = false then
    if h₂ : minThroughputRps.lt (.fin 0) = false then
      if h₃ : (Py.Float.fin 0).le maxErrorRatio = true ∧ maxErrorRatio.le (.fin 1) = true then
        if h₄ : (Py.Float.fin 0).le minAvailabilityRatio = true ∧
            minAvailabilityRatio.le (.fin 1) = true then
          .ok ⟨maxP99LatencyMs, minThroughputRps, maxErrorRatio, minAvailabilityRatio, h₁, h₂, h₃,
            h₄⟩
        else Py.valueError "min_availability_ratio must be within 0..=1"
      else Py.valueError "max_error_ratio must be within 0..=1"
    else Py.valueError "min_throughput_rps must not be negative"
  else Py.valueError "max_p99_latency_ms must be positive"

/-- The default of `--slo-min-rps`: 95% of the rate. -/
def defaultMinRps : Py.Float → Py.Float
  | .fin rate => .fin (rate * (95 / 100))
  | rate => rate

/-- What the loop starts from. -/
structure Plan where
  limits : List ℤ
  request : ℤ
  nodeCapacity : ℤ
  slo : Slo

/-- The request of the cells: an explicit one, or the smallest planned limit; zero counts as not
given. -/
def requestMillicores (explicit : Option ℤ) (smallest : ℤ) : ℤ :=
  match explicit with
  | some r => if r = 0 then smallest else r
  | none => smallest

/-- `main` up to the loop, with the worker nodes of the cluster, largest first. -/
def planPilot (args : PilotArgs) (workers : List (String × ℤ)) : Except PilotExc Plan :=
  if ¬ ((Py.Float.fin 0).lt args.deadlineSeconds ∧ args.deadlineSeconds.le (.fin 60)) then
    .error (.systemExit "--deadline-seconds must be greater than 0 and at most 60")
  else if args.maxCells < 1 ∨ args.maxCells > 2 then
    .error (.systemExit "--max-cells must be between 1 and 2 for the bounded pilot")
  else if ¬ (0 < args.maxLimitMillicores ∧ args.maxLimitMillicores ≤ 250) then
    .error (.systemExit "--max-limit-millicores must be between 1m and 250m")
  else
    ((Slo.make args.sloP99Ms (args.sloMinRps.getD (defaultMinRps args.rate)) args.sloMaxErrorRatio
      args.sloMinAvailability).mapError PilotExc.builtin).bind fun slo =>
    match workers with
    | [] => .error (.systemExit "no schedulable worker nodes found")
    | (_, nodeCapacity) :: _ =>
      ((planLimits args.minLimitMillicores (min nodeCapacity args.maxLimitMillicores) args.growth
        args.maxCells).mapError PilotExc.builtin).bind fun limits =>
      match limits with
      | [] => .error (.builtin ⟨.indexError, "list index out of range"⟩)
      | smallest :: _ =>
        let request := requestMillicores args.cpuRequestMillicores smallest
        if request > 300 then
          .error (.systemExit "--cpu-request-millicores exceeds the 300m active pilot budget")
        else if request > smallest then
          .error (.systemExit ("--cpu-request-millicores (" ++ toString request ++
            "m) exceeds the smallest planned limit (" ++ toString smallest ++
            "m); the API server would reject every cell"))
        else .ok ⟨limits, request, nodeCapacity, slo⟩

/-- `p` and a time stamp of ten digits, then four hexadecimal digits. -/
structure RunId where
  stamp : List Char
  token : List Char
  stamp_length : stamp.length = 10
  token_length : token.length = 4
  stamp_digits : stamp.all Char.isDigit = true
  token_digits : token.all isNameChar = true

/-- The text of a run id. -/
def RunId.text (id : RunId) : String := String.ofList ('p' :: (id.stamp ++ id.token))

/-- What every turn of the loop reads. -/
structure Pilot where
  template : Template
  slo : Slo
  runId : RunId
  mix : String
  request : ℤ
  iterations : ℤ
  nodeCapacity : ℤ

/-- The pilot that runs a plan. -/
def Plan.pilot (plan : Plan) (args : PilotArgs) (runId : RunId) (template : Template) : Pilot where
  template := template
  slo := plan.slo
  runId := runId
  mix := args.mix
  request := plan.request
  iterations := args.cpuIterations
  nodeCapacity := plan.nodeCapacity

/-- The `CellSpec` of a limit. -/
def Pilot.cell (p : Pilot) (limit : ℤ) : CellSpec :=
  CellSpec.ofPilot (p.runId.text ++ "-" ++ toString limit ++ "m") p.mix limit (min p.request limit)
    p.iterations

/-! ### The loop over the limits -/

/-- What measuring a rendered cell brought. -/
inductive Measurement where
  /-- Deploying, waiting, warming up, sampling or running the generator raised. -/
  | raised (e : PilotExc)
  /-- The generator's report, the readings around it, and the node of the pod. -/
  | taken (report : Report) (before after : CgroupSample) (node : String) (nodeCapacity : ℤ)
      (wallSeconds : ℚ)

/-- One iteration: its limit, whether the deadline had passed, and the measurement. -/
structure Turn where
  limit : ℤ
  expired : Bool
  measurement : Measurement

/-- The recorded result of one cell. -/
structure CellResult where
  cell : String
  limitMillicores : ℤ
  requestMillicores : ℤ
  node : String
  nodeCapacityMillicores : ℤ
  outcome : Outcome
  reason : String
  loadgen : Items
  cgroup : CpuMetrics
  wallSeconds : ℚ

/-- The variables of the loop; `stopped` is set where the source breaks out of it. -/
structure LoopState where
  results : List CellResult
  bracket : Option Bracket
  pilotError : String
  stopped : Bool

/-- Before the first limit. -/
def LoopState.start : LoopState := ⟨[], none, "", false⟩

/-- `measure_cell`. -/
def measureCell (p : Pilot) (limit : ℤ) (measurement : Measurement) : Except PilotExc CellResult :=
  let cell := p.cell limit
  ((cell.manifest p.template.text).mapError PilotExc.renderFailure).bind fun _ =>
  match measurement with
  | .raised e => .error e
  | .taken report before after node nodeCapacity wallSeconds =>
    ((deriveCpuMetrics before after limit).mapError PilotExc.kubernetesError).bind fun cpu =>
    ((observationFrom report.toItems cpu (some true)).mapError PilotExc.builtin).bind
      fun observation =>
    ((defaultVerdict observation p.slo).mapError PilotExc.builtin).bind fun verdict =>
    .ok
      { cell := cell.cell
        limitMillicores := cell.cpuLimitMillicores
        requestMillicores := cell.cpuRequestMillicores
        node := node
        nodeCapacityMillicores := nodeCapacity
        outcome := verdict.1
        reason := verdict.2
        loadgen := report.toItems
        cgroup := cpu
        wallSeconds := wallSeconds }

/-- `f"{v:.1f}"` raises on what is no number. -/
def formattable : Value → Except Py.Exc Unit
  | .scalar (.str _) => Py.valueError "Unknown format code 'f' for object of type 'str'"
  | .scalar (.bool _) | .scalar (.int _) | .scalar (.float _) => .ok ()
  | _ => Py.typeError "unsupported format string passed to __format__"

/-- The log line of a measured cell: it reads `p99` of the latencies and formats two rates. -/
def logCell (result : CellResult) : Except Py.Exc Unit :=
  match (result.loadgen.lookup "latency_ms").getD (.dict []) with
  | .dict _ => formattable ((result.loadgen.lookup "achieved_rate_rps").getD (.int 0))
  | _ => .error ⟨.attributeError, "object has no attribute 'get'"⟩

/-- The cell recorded when the measurement failed. -/
def failedCell (p : Pilot) (limit : ℤ) (e : PilotExc) : CellResult where
  cell := (p.cell limit).cell
  limitMillicores := limit
  requestMillicores := (p.cell limit).cpuRequestMillicores
  node := ""
  nodeCapacityMillicores := p.nodeCapacity
  outcome := .invalid
  reason := "measurement failed: " ++ e.text
  loadgen := []
  cgroup := []
  wallSeconds := 0

/-- The trials of the recorded cells. -/
def trials (results : List CellResult) : List Trial :=
  results.map fun item => ⟨item.limitMillicores, item.outcome, item.reason⟩

/-- Recording a measured cell; the first one that meets the SLO ends the loop. -/
def record (p : Pilot) (s : LoopState) (result : CellResult) : LoopState :=
  let results := s.results ++ [result]
  if result.outcome = .meetsSlo then
    match evaluateTrials (trials results) p.nodeCapacity with
    | .ok bracket => { s with results := results, bracket := some bracket, stopped := true }
    | .error e => { s with results := results, pilotError := e.message, stopped := true }
  else { s with results := results }

/-- One iteration of the loop. -/
def Pilot.turn (p : Pilot) (s : LoopState) (t : Turn) : Except PilotExc LoopState :=
  if s.stopped then .ok s
  else if t.expired then
    .ok { s with
      pilotError := "pilot end-to-end deadline reached before starting next cell"
      stopped := true }
  else
    match measureCell p t.limit t.measurement with
    | .error e =>
      if e.caught then .ok { s with results := s.results ++ [failedCell p t.limit e] } else .error e
    | .ok result =>
      ((logCell result).mapError PilotExc.builtin).bind fun _ => .ok (record p s result)

/-- The loop. -/
def Pilot.loop (p : Pilot) : LoopState → List Turn → Except PilotExc LoopState
  | s, [] => .ok s
  | s, t :: turns => (p.turn s t).bind fun s' => Pilot.loop p s' turns

/-- After the loop: the bracket of the recorded cells, unless the loop already settled it. -/
def LoopState.finish (s : LoopState) (nodeCapacity : ℤ) : LoopState :=
  if s.bracket.isNone ∧ s.pilotError = "" then
    match evaluateTrials (trials s.results) nodeCapacity with
    | .ok bracket => { s with bracket := some bracket }
    | .error e => { s with pilotError := e.message }
  else s

/-! ### What a turn records -/

/-- The turn failed before a report was read: the manifest did not render, or the measurement
raised. -/
def Pilot.FailsBefore (p : Pilot) (t : Turn) (e : PilotExc) : Prop :=
  (∃ failure, (p.cell t.limit).manifest p.template.text = .error failure ∧
    e = .renderFailure failure) ∨ t.measurement = .raised e

/-- The state after a turn has one more cell, for the turn's limit, and the loop goes on unless
that cell met the SLO. -/
def Recorded (s s' : LoopState) (limit : ℤ) : Prop :=
  ∃ cell, s'.results = s.results ++ [cell] ∧ cell.limitMillicores = limit ∧
    (s'.stopped = true → cell.outcome = .meetsSlo)

/-- The report the turn reads can be converted: something completed, unless the readings are
refused first. -/
def Measurement.Usable (limit : ℤ) : Measurement → Prop
  | .raised _ => True
  | .taken report before after _ _ _ =>
    0 < report.completed ∨ ∃ message, deriveCpuMetrics before after limit = .error message

theorem recorded_record {p : Pilot} {s : LoopState} (hs : s.stopped = false) (result : CellResult) :
    Recorded s (record p s result) result.limitMillicores := by
  refine ⟨result, ?_, rfl, ?_⟩
  · rw [record]
    split_ifs
    · cases evaluateTrials (trials (s.results ++ [result])) p.nodeCapacity <;> rfl
    · rfl
  · intro h
    by_contra hne
    rw [record, if_neg hne] at h
    simp only [hs] at h
    cases h

theorem logCell_report {result : CellResult} {r : Report} (h : result.loadgen = r.toItems) :
    logCell result = .ok () := by
  have hlatency : (r.toItems.lookup "latency_ms").getD (.dict []) = .dict r.latencyMs.toItems := rfl
  have hrate : (r.toItems.lookup "achieved_rate_rps").getD (.int 0) = num r.achievedRateRps := rfl
  rw [logCell, h, hlatency, hrate]
  rfl

/-- What measuring a rendered cell gives. -/
theorem measureCell_taken (p : Pilot) {limit : ℤ} {manifest : List Char}
    (hm : (p.cell limit).manifest p.template.text = .ok manifest) (r : Report)
    (before after : CgroupSample) (node : String) (capacity : ℤ) (wall : ℚ) :
    match deriveCpuMetrics before after limit with
    | .error message =>
      measureCell p limit (.taken r before after node capacity wall) =
        .error (.kubernetesError message)
    | .ok _ =>
      if 0 < r.completed then
        ∃ result, measureCell p limit (.taken r before after node capacity wall) =
          .ok result ∧ result.limitMillicores = limit ∧ result.loadgen = r.toItems
      else ∃ message, measureCell p limit (.taken r before after node capacity wall) =
        .error (.builtin ⟨.unboundLocalError, message⟩) := by
  cases hd : deriveCpuMetrics before after limit with
  | error message => simp [measureCell, hm, hd, Except.mapError, Except.bind]
  | ok cpu =>
    simp only [measureCell, hm, hd, observationFrom_report, Except.mapError, Except.bind]
    split_ifs with hc
    · obtain ⟨verdict, hv⟩ := defaultVerdict_isOk (o := r.observation cpu) rfl p.slo
      simp only [hv]
      exact ⟨_, rfl, rfl, rfl⟩
    · exact ⟨_, rfl⟩

section Turn

variable {p : Pilot} {s : LoopState} {t : Turn} (hs : s.stopped = false)
  (ht : t.expired = false)
include hs ht

/-- A failure the loop catches is recorded as an invalid cell. -/
theorem turn_caught {e : PilotExc} (he : e.caught = true)
    (hmeasure : measureCell p t.limit t.measurement = .error e) :
    ∃ s', p.turn s t = .ok s' ∧ Recorded s s' t.limit := by
  refine ⟨{ s with results := s.results ++ [failedCell p t.limit e] }, ?_, _, rfl, rfl, ?_⟩
  · simp only [Pilot.turn, hs, ht, Bool.false_eq_true, if_false, hmeasure, he, if_true]
  · intro h
    rw [hs] at h
    cases h

/-- Any other failure ends the run. -/
theorem turn_uncaught {e : PilotExc} (he : e.caught = false)
    (hmeasure : measureCell p t.limit t.measurement = .error e) :
    p.turn s t = .error e := by
  simp only [Pilot.turn, hs, ht, Bool.false_eq_true, if_false, hmeasure, he]

/-- **A turn from any state of the loop**: once the cell is rendered and the report read, its cell
is recorded exactly when the report is usable. -/
theorem recorded_turn_iff {manifest : List Char}
    (hm : (p.cell t.limit).manifest p.template.text = .ok manifest) {r : Report}
    {before after : CgroupSample} {node : String} {capacity : ℤ} {wall : ℚ}
    (hr : t.measurement = .taken r before after node capacity wall) :
    (∃ s', p.turn s t = .ok s' ∧ Recorded s s' t.limit) ↔
      t.measurement.Usable t.limit := by
  have hspec := measureCell_taken p hm r before after node capacity wall
  rw [← hr] at hspec
  cases hd : deriveCpuMetrics before after t.limit with
  | error message =>
    rw [hd] at hspec
    refine iff_of_true (turn_caught hs ht rfl hspec) ?_
    rw [hr]
    exact .inr ⟨message, hd⟩
  | ok cpu =>
    rw [hd] at hspec
    simp only at hspec
    split_ifs at hspec with hc
    · obtain ⟨result, hres, hlimit, hload⟩ := hspec
      refine iff_of_true ⟨record p s result, ?_, hlimit ▸ recorded_record hs result⟩ ?_
      · simp only [Pilot.turn, hs, ht, Bool.false_eq_true, if_false, hres, logCell_report hload,
          Except.mapError, Except.bind]
      · rw [hr]
        exact .inl hc
    · -- the unbound variable is none of the classes the loop catches
      obtain ⟨message, hraise⟩ := hspec
      rw [turn_uncaught hs ht rfl hraise, hr, Measurement.Usable, hd]
      simp [hc]

end Turn

/-- One turn of a run whose reports are usable: it stops at the deadline, records its cell, or
fails before a report. -/
theorem turn_cases (p : Pilot) {s : LoopState} (hs : s.stopped = false) {t : Turn}
    (hu : t.measurement.Usable t.limit) :
    (∃ s', p.turn s t = .ok s' ∧
      (t.expired = true ∧ s'.results = s.results ∧ s'.stopped = true ∨
        t.expired = false ∧ Recorded s s' t.limit)) ∨
      ∃ e, p.turn s t = .error e ∧ p.FailsBefore t e := by
  cases ht : t.expired with
  | true =>
    refine .inl ⟨{ s with
      pilotError := "pilot end-to-end deadline reached before starting next cell"
      stopped := true }, ?_, .inl ⟨rfl, rfl, rfl⟩⟩
    simp only [Pilot.turn, hs, ht, Bool.false_eq_true, if_false, if_true]
  | false =>
    cases hm : (p.cell t.limit).manifest p.template.text with
    | error failure =>
      have hmeasure : measureCell p t.limit t.measurement =
          .error (.renderFailure failure) := by
        simp [measureCell, hm, Except.mapError, Except.bind]
      exact .inr ⟨_, turn_uncaught hs ht rfl hmeasure, .inl ⟨failure, hm, rfl⟩⟩
    | ok manifest =>
      cases hr : t.measurement with
      | raised e =>
        have hmeasure : measureCell p t.limit t.measurement = .error e := by
          simp [measureCell, hm, hr, Except.mapError, Except.bind]
        cases he : e.caught with
        | true =>
          obtain ⟨s', hs', hrec⟩ := turn_caught hs ht he hmeasure
          exact .inl ⟨s', hs', .inr ⟨rfl, hrec⟩⟩
        | false => exact .inr ⟨e, turn_uncaught hs ht he hmeasure, .inr hr⟩
      | taken r before after node capacity wall =>
        obtain ⟨s', hs', hrec⟩ := (recorded_turn_iff hs ht hm hr).2 hu
        exact .inl ⟨s', hs', .inr ⟨rfl, hrec⟩⟩

theorem loop_stopped (p : Pilot) {s : LoopState} (hs : s.stopped = true) (turns : List Turn) :
    p.loop s turns = .ok s := by
  induction turns with
  | nil => rfl
  | cons t turns ih =>
    rw [Pilot.loop, Pilot.turn, if_pos hs]
    exact ih

/-- A run whose reports are usable keeps every cell it measured: it ends with one more cell for
each limit it started, in order, or with a failure from before a report. -/
theorem loop_cases (p : Pilot) {turns : List Turn} {s : LoopState} (hs : s.stopped = false)
    (hu : ∀ t ∈ turns, t.measurement.Usable t.limit) :
    (∃ s' started, p.loop s turns = .ok s' ∧ started <+: turns.map Turn.limit ∧
      s'.results.map CellResult.limitMillicores =
        s.results.map CellResult.limitMillicores ++ started ∧
      (s'.stopped = false → started = turns.map Turn.limit)) ∨
      ∃ t ∈ turns, ∃ e, p.loop s turns = .error e ∧ p.FailsBefore t e := by
  induction turns generalizing s with
  | nil => exact .inl ⟨s, [], rfl, List.prefix_rfl, by simp, fun _ => rfl⟩
  | cons t turns ih =>
    have hu' : ∀ t' ∈ turns, t'.measurement.Usable t'.limit :=
      fun t' ht' => hu t' (List.mem_cons_of_mem _ ht')
    -- a turn stops the loop without a cell, adds a cell (and may stop then), or fails
    rcases turn_cases p hs (hu t List.mem_cons_self) with
      ⟨s', hturn, hs'⟩ | ⟨e, hturn, hfail⟩
    · rcases hs' with ⟨-, hresults, hstop⟩ | ⟨-, cell, hresults, hlimit, -⟩
      · refine .inl ⟨s', [], ?_, List.nil_prefix, by simp [hresults], fun h => ?_⟩
        · rw [Pilot.loop, hturn]
          exact loop_stopped p hstop turns
        · rw [hstop] at h
          cases h
      · have hmap : s'.results.map CellResult.limitMillicores =
            s.results.map CellResult.limitMillicores ++ [t.limit] := by
          rw [hresults, List.map_append, List.map_singleton, hlimit]
        cases hstop : s'.stopped with
        | true =>
          refine .inl ⟨s', [t.limit], ?_, by simp, hmap, fun h => ?_⟩
          · rw [Pilot.loop, hturn]
            exact loop_stopped p hstop turns
          · rw [hstop] at h
            cases h
        | false =>
          have hloop : p.loop s (t :: turns) = p.loop s' turns := by
            rw [Pilot.loop, hturn]
            rfl
          rw [hloop]
          rcases ih hstop hu' with ⟨s'', started, hrun, hpre, hcells, hall⟩ | ⟨t', ht', e, hrun, hfail⟩
          · refine .inl ⟨s'', t.limit :: started, hrun, ?_, ?_, fun h => ?_⟩
            · rw [List.map_cons]
              exact List.cons_prefix_cons.2 ⟨rfl, hpre⟩
            · rw [hcells, hmap, List.append_assoc, List.singleton_append]
            · rw [List.map_cons, hall h]
          · exact .inr ⟨t', List.mem_cons_of_mem _ ht', e, hrun, hfail⟩
    · refine .inr ⟨t, List.mem_cons_self, e, ?_, hfail⟩
      rw [Pilot.loop, hturn]
      rfl

/-- **A report is kept exactly when something completed.**  The conversion returns on those reports
only; from any state of the loop a rendered and measured cell is recorded exactly when its report
is usable; and a run whose reports are all usable ends with a cell for each limit it started, or
with a failure from before a report. -/
theorem pilot_records_iff_completed (p : Pilot) :
    (∀ (r : Report) (cpu : CpuMetrics) (reached : Option Bool),
      (∃ o, observationFrom r.toItems cpu reached = .ok o ∧
        (r.completed = 0 → o.availabilityRatio = none)) ↔ 0 < r.completed) ∧
    (∀ (s : LoopState) (t : Turn) (manifest : List Char) (r : Report) (before after : CgroupSample)
      (node : String) (capacity : ℤ) (wall : ℚ), s.stopped = false → t.expired = false →
      (p.cell t.limit).manifest p.template.text = .ok manifest →
      t.measurement = .taken r before after node capacity wall →
      ((∃ s', p.turn s t = .ok s' ∧ Recorded s s' t.limit) ↔
        0 < r.completed ∨ ∃ message, deriveCpuMetrics before after t.limit = .error message)) ∧
    ∀ turns : List Turn, (∀ t ∈ turns, t.measurement.Usable t.limit) →
      (∃ s started, p.loop .start turns = .ok s ∧ started <+: turns.map Turn.limit ∧
        s.results.map CellResult.limitMillicores = started ∧
        (s.stopped = false → started = turns.map Turn.limit)) ∨
        ∃ t ∈ turns, ∃ e, p.loop .start turns = .error e ∧ p.FailsBefore t e := by
  refine ⟨fun r cpu reached => ⟨?_, fun hc => ?_⟩, ?_, fun turns hu => ?_⟩
  · rintro ⟨o, ho, -⟩
    exact (observationFrom_isOk_iff r cpu reached).1 ⟨o, ho⟩
  · obtain ⟨o, ho⟩ := (observationFrom_isOk_iff r cpu reached).2 hc
    exact ⟨o, ho, fun h => absurd hc (by omega)⟩
  · intro s t manifest r before after node capacity wall hs ht hm hr
    have hiff : (∃ s', p.turn s t = .ok s' ∧ Recorded s s' t.limit) ↔
        t.measurement.Usable t.limit := recorded_turn_iff hs ht hm hr
    rwa [hr, Measurement.Usable] at hiff
  · exact loop_cases p (s := .start) rfl hu

/-! ### A run that loses its cells -/

/-- A pilot at 50m and 100m over a template of two lines. -/
def samplePilot : Pilot where
  template :=
    { pieces := [.text "  name: bench-".toList, .placeholder "CELL",
        .text "\n  cpu: ".toList, .placeholder "CPU_LIMIT", .text "\n".toList]
      known := by decide }
  slo := pilotSlo
  runId := ⟨"1118013900".toList, "00ff".toList, by decide, by decide, by decide, by decide⟩
  mix := "balanced"
  request := 50
  iterations := 20000
  nodeCapacity := 2000

/-- A turn that measures a cell for four seconds and reads the given report. -/
def sampleTurn (limit : ℤ) (report : Report) : Turn where
  limit := limit
  expired := false
  measurement := .taken report ⟨0, 0, 0, 0, 0⟩ ⟨4, 40, 40, 2000000, 200000⟩ "worker-1" 2000 30

/-- The report of a run in which no request completed. -/
def silentReport : Report :=
  reportOf ⟨"http://127.0.0.1:18080", .openLoop, 1, 8, 4, 0, .balanced⟩ ⟨[], by decide⟩ 4
    ⟨0, 0, 0, 0, 0, 0, 0⟩

/-- Two limits are measured, and each loses most of its requests. -/
def starvedTurns : List Turn := [sampleTurn 50 starvedReport, sampleTurn 100 starvedReport]

/-- The run comes to its end, so that the second case of the theorem is excluded. -/
theorem pilot_records_iff_completed_starved :
    ∃ s, samplePilot.loop .start starvedTurns = .ok s ∧ s.stopped = false ∧
      s.results.map CellResult.limitMillicores = [50, 100] := by
  have husable : ∀ t ∈ starvedTurns, t.measurement.Usable t.limit := by
    simp only [starvedTurns, List.forall_mem_cons, List.not_mem_nil, false_implies, implies_true,
      and_true]
    exact ⟨.inl (by decide), .inl (by decide)⟩
  have hruns : Py.okAnd (samplePilot.loop .start starvedTurns) (fun s => !s.stopped) = true := by
    decide +kernel
  obtain ⟨s, hs, hgoes⟩ := Py.okAnd_eq_true.1 hruns
  rw [Bool.not_eq_true'] at hgoes
  rcases (pilot_records_iff_completed samplePilot).2.2 starvedTurns husable with
    ⟨s', started, hs', -, hcells, hall⟩ | ⟨t, -, e, he, -⟩
  · obtain rfl := Except.ok.inj (hs.symm.trans hs')
    exact ⟨s, hs, hgoes, hcells.trans (hall hgoes)⟩
  · rw [hs] at he
    cases he

/-- The built-in exception that ends a run. -/
def endedBy : Except PilotExc LoopState → Option Py.Exc
  | .error (.builtin e) => some e
  | _ => none

theorem endedBy_eq_some {r : Except PilotExc LoopState} {e : Py.Exc} :
    endedBy r = some e ↔ r = .error (.builtin e) := by
  constructor
  · intro h
    unfold endedBy at h
    split at h
    · cases h
      rfl
    · cases h
  · rintro rfl
    rfl

/-- After a recorded cell at 50m, a report without a completed request at 100m ends the run with an
`UnboundLocalError`. -/
theorem silent_report_loses_cells :
    (∃ s, samplePilot.loop .start [sampleTurn 50 starvedReport] = .ok s ∧
      s.stopped = false ∧ s.results.map CellResult.limitMillicores = [50]) ∧
      ∃ message, samplePilot.loop .start
        [sampleTurn 50 starvedReport, sampleTurn 100 silentReport] =
          .error (.builtin ⟨.unboundLocalError, message⟩) := by
  have hcells : Py.okAnd (samplePilot.loop .start [sampleTurn 50 starvedReport])
      (fun s => !s.stopped && decide (s.results.map CellResult.limitMillicores = [50])) = true := by
    decide +kernel
  have habort : (endedBy (samplePilot.loop .start
      [sampleTurn 50 starvedReport, sampleTurn 100 silentReport])).map Py.Exc.cls =
        some .unboundLocalError := by decide +kernel
  constructor
  · obtain ⟨s, hs, htest⟩ := Py.okAnd_eq_true.1 hcells
    simp only [Bool.and_eq_true, Bool.not_eq_true', decide_eq_true_eq] at htest
    exact ⟨s, hs, htest⟩
  · obtain ⟨⟨cls, message⟩, he, rfl⟩ := Option.map_eq_some_iff.1 habort
    exact ⟨message, endedBy_eq_some.1 he⟩

/-! ### Planned limits and the renderer -/

theorem isCellName_of_runId (id : RunId) {limit : ℤ} (h₁ : 1 ≤ limit) (h₂ : limit ≤ 99999) :
    isCellName (id.text ++ "-" ++ toString limit ++ "m").toList = true := by
  have hlen : (Py.natDigits limit.toNat).length ≤ 5 :=
    (Nat.length_toDigits_le_iff (by omega) (by omega)).2 (by omega)
  have hlist : (id.text ++ "-" ++ toString limit ++ "m").toList =
      'p' :: (id.stamp ++ id.token ++ '-' :: (Py.natDigits limit.toNat ++ ['m'])) := by
    simp only [String.toList_append, RunId.text, String.toList_ofList,
      toList_toString_int (show 0 ≤ limit by omega)]
    simp
  have hall : ∀ c ∈ id.stamp ++ id.token ++ '-' :: (Py.natDigits limit.toNat ++ ['m']),
      (isNameChar c || c == '-') = true := by
    intro c hc
    simp only [List.mem_append, List.mem_cons, List.not_mem_nil, or_false] at hc
    rcases hc with (hc | hc) | rfl | hc | rfl
    · simp [isNameChar, List.all_eq_true.1 id.stamp_digits c hc]
    · simp [List.all_eq_true.1 id.token_digits c hc]
    · rfl
    · simp [isNameChar, Py.isDigit_of_mem_natDigits hc]
    · rfl
  have hsize : (id.stamp ++ id.token ++ '-' :: (Py.natDigits limit.toNat ++ ['m'])).length ≤ 40 := by
    simp only [List.length_append, List.length_cons, List.length_nil, id.stamp_length,
      id.token_length]
    omega
  rw [hlist, isCellName, List.all_eq_true.2 hall, decide_eq_true hsize]
  rfl

/-- What the pilot admitted. -/
theorem planPilot_eq_ok {args : PilotArgs} {workers : List (String × ℤ)} {plan : Plan}
    (h : planPilot args workers = .ok plan) :
    ∃ capacity smallest rest, plan.limits = smallest :: rest ∧
      planLimits args.minLimitMillicores (min capacity args.maxLimitMillicores) args.growth
        args.maxCells = .ok plan.limits ∧ args.maxLimitMillicores ≤ 250 ∧
      plan.request = requestMillicores args.cpuRequestMillicores smallest ∧
      plan.request ≤ smallest := by
  unfold planPilot at h
  split_ifs at h with h₁ h₂ h₃
  obtain ⟨slo, -, h⟩ := Py.bind_eq_ok.1 h
  cases workers with
  | nil => cases h
  | cons worker workers =>
    obtain ⟨name, capacity⟩ := worker
    obtain ⟨limits, hlimits, h⟩ := Py.bind_eq_ok.1 h
    have hplan : planLimits args.minLimitMillicores (min capacity args.maxLimitMillicores)
        args.growth args.maxCells = .ok limits := by
      revert hlimits
      cases planLimits args.minLimitMillicores (min capacity args.maxLimitMillicores)
        args.growth args.maxCells <;> simp [Except.mapError]
    cases limits with
    | nil => cases h
    | cons smallest rest =>
      simp only at h
      split_ifs at h with h₄ h₅
      cases h
      exact ⟨capacity, smallest, rest, rfl, hplan, by omega, rfl, not_lt.1 h₅⟩

/-- The cell of a planned limit renders, and its CPU limit reads back as the planned one. -/
def RendersPlanned (p : Pilot) (limit : ℤ) : Prop :=
  (∃ manifest, (p.cell limit).manifest p.template.text = .ok manifest) ∧
    ∃ value n, (p.cell limit).renderValues.lookup "CPU_LIMIT" = some value ∧
      parseQuantityMillicores value = .ok n ∧ (n : ℤ) = limit

/-- **Every planned cell renders exactly when no quantity of the plan has a single digit**: the
minimum, and an explicit request, must be at least 10m (for a mix and a number of iterations that
the renderer knows). -/
theorem planned_limits_render_iff {args : PilotArgs} {workers : List (String × ℤ)} {plan : Plan}
    (h : planPilot args workers = .ok plan) (runId : RunId) (template : Template) :
    (∀ limit ∈ plan.limits, RendersPlanned (plan.pilot args runId template) limit) ↔
      10 ≤ args.minLimitMillicores ∧
        (∀ request, args.cpuRequestMillicores = some request → request ≠ 0 → 10 ≤ request) ∧
        isMix args.mix.toList = true ∧
        isNumeral 2 7 (toString args.cpuIterations).toList = true := by
  obtain ⟨capacity, smallest, rest, hlimits, hplan, hmax, hrequest, hle⟩ := planPilot_eq_ok h
  obtain ⟨hmin, -⟩ := planLimits_eq_ok hplan
  have hrange : ∀ limit ∈ plan.limits, args.minLimitMillicores ≤ limit ∧ limit ≤ 250 := by
    intro limit hlimit
    have := mem_planLimits hplan hlimit
    omega
  -- a planned limit is a positive number of at most three digits, so only the quantities matter
  have hiff : ∀ limit ∈ plan.limits, RendersPlanned (plan.pilot args runId template) limit ↔
      10 ≤ min plan.request limit ∧ isMix args.mix.toList = true ∧
        isNumeral 2 7 (toString args.cpuIterations).toList = true := by
    intro limit hlimit
    have hbound := hrange limit hlimit
    have hcell : isCellName (runId.text ++ "-" ++ toString limit ++ "m").toList = true :=
      isCellName_of_runId runId (by omega) (by omega)
    refine Iff.trans ⟨fun hr => hr.1, fun hr => ⟨hr, ?_⟩⟩
      (manifest_ofPilot_isOk_iff template hcell (min_le_right _ _) (by omega))
    exact ⟨_, _, rfl, parseQuantity_toString (n := limit) (by omega) (by omega), by omega⟩
  have hsmallest : smallest ∈ plan.limits := by simp [hlimits]
  constructor
  · intro hall
    obtain ⟨h10, hmix, hiter⟩ := (hiff smallest hsmallest).1 (hall smallest hsmallest)
    refine ⟨?_, ?_, hmix, hiter⟩
    · by_contra hlt
      obtain ⟨first, rest', hfirst, heq⟩ := planLimits_head hplan
      obtain rfl : smallest = first := (List.cons.inj (hlimits.symm.trans hfirst)).1
      have := heq (by omega)
      omega
    · intro request hr hne
      simp only [requestMillicores, hr, hne, if_false] at hrequest
      omega
  · rintro ⟨h10, hexplicit, hmix, hiter⟩ limit hlimit
    refine (hiff limit hlimit).2 ⟨le_min ?_ (h10.trans (hrange limit hlimit).1), hmix, hiter⟩
    have hfirst : 10 ≤ smallest := h10.trans (hrange smallest hsmallest).1
    rw [hrequest]
    cases hr : args.cpuRequestMillicores with
    | none => exact hfirst
    | some r =>
      simp only [requestMillicores]
      split_ifs with h0
      · exact hfirst
      · exact hexplicit r hr h0

/-- The default arguments for a rate of 50, with the given minimum. -/
def sampleArgs (minLimit : ℤ) : PilotArgs where
  mix := "balanced"
  rate := .fin 50
  sloP99Ms := .fin 100
  sloMinRps := some (.fin 45)
  sloMaxErrorRatio := .fin 0
  sloMinAvailability := .fin (99 / 100)
  minLimitMillicores := minLimit
  maxLimitMillicores := 250
  growth := .fin 2
  maxCells := 2
  deadlineSeconds := .fin 60
  cpuRequestMillicores := none
  cpuIterations := 20000

theorem planned_limits_render_iff_default :
    ∃ plan, planPilot (sampleArgs 50) [("worker-1", 2000)] = .ok plan ∧ plan.limits = [50, 100] ∧
      ∀ limit ∈ plan.limits,
        RendersPlanned (plan.pilot (sampleArgs 50) samplePilot.runId samplePilot.template) limit := by
  have hcheck : Py.okAnd (planPilot (sampleArgs 50) [("worker-1", 2000)])
      (fun plan => decide (plan.limits = [50, 100])) = true := by decide +kernel
  obtain ⟨plan, hplan, hlimits⟩ := Py.okAnd_eq_true.1 hcheck
  refine ⟨plan, hplan, of_decide_eq_true hlimits, ?_⟩
  refine (planned_limits_render_iff hplan samplePilot.runId samplePilot.template).2 ⟨?_, ?_, ?_, ?_⟩
  · decide
  · intro request h
    cases h
  · decide +kernel
  · decide +kernel

/-- A minimum of 5m is admitted and planned, and the renderer refuses its cell. -/
theorem planned_5m_not_rendered :
    ∃ plan, planPilot (sampleArgs 5) [("worker-1", 2000)] = .ok plan ∧ 5 ∈ plan.limits ∧
      ¬ RendersPlanned (plan.pilot (sampleArgs 5) samplePilot.runId samplePilot.template) 5 := by
  have hcheck : Py.okAnd (planPilot (sampleArgs 5) [("worker-1", 2000)]) (fun plan =>
      decide (5 ∈ plan.limits) &&
        !Py.okAnd (((plan.pilot (sampleArgs 5) samplePilot.runId samplePilot.template).cell 5).manifest
          samplePilot.template.text) (fun _ => true)) = true := by decide +kernel
  obtain ⟨plan, hplan, htest⟩ := Py.okAnd_eq_true.1 hcheck
  simp only [Bool.and_eq_true, decide_eq_true_eq, Bool.not_eq_true'] at htest
  refine ⟨plan, hplan, htest.1, ?_⟩
  rintro ⟨⟨manifest, hm⟩, -⟩
  have hok : (plan.pilot (sampleArgs 5) samplePilot.runId samplePilot.template).template =
    samplePilot.template := rfl
  rw [hok] at hm
  simp only [Py.okAnd, hm, Bool.true_eq_false, and_false] at htest

end Phase8

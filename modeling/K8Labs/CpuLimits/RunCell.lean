import K8Labs.Python.Effect
import K8Labs.Python.Str

/-!
# One cell

`run_cell` of `run-cell.py` measures one cell, appends its rows to `cgroups.csv` and `metrics.csv`,
deletes the Pods it owns and appends a row with the status to `blocks.csv`.  Any call may raise; an
`Execution` says what each of them does.  The state holds what this run has appended.

* `kept_iff` : the rows of the run are in the files exactly when the cell is recorded as complete, and
  the deletion of every owned Pod is attempted once, **if and only if** nothing fails behind the first
  row that is written, no trace is left that cannot be stopped, and no deletion but the last raises
  what `_delete_pod` does not catch.
* `not_kept_stuckPod` : a Pod that cannot be deleted leaves the rows of a cell that is recorded as
  failed.
-/

namespace CpuLimits.RunCell

open Py Py.Effect

/-! ### Cells -/

/-- A cell of the design. -/
structure Cell where
  cellId : String
  workload : String
  policy : String
  condition : String

/-- `cells`. -/
def cells : List Cell :=
  [("solo", ["fit", "best-effort", "request-low", "burstable-low"]),
    ("contention", ["fit", "request-low", "request-high", "guaranteed-low", "burstable-low"])].flatMap
  fun (condition, policies) =>
    ["cpu-bound", "io-bound", "memory-bound", "hybrid"].flatMap fun workload =>
      policies.map fun policy =>
        ⟨condition ++ "-" ++ workload ++ "-" ++ policy, workload, policy, condition⟩

/-- The arguments of the program. -/
structure Args where
  phase : String
  cellId : String
  runId : String
  blockId : ℤ
  position : ℤ
  seed : ℤ
  node : String
  trace : Bool

/-! ### Exceptions -/

/-- An exception: `CellRunError`, `yaml.YAMLError`, `subprocess.TimeoutExpired` or another one. -/
inductive Failure where
  | cellRun (message : String)
  | yaml (message : String)
  | timeout (message : String)
  | other (e : Exc)

/-- `str(error)`. -/
def Failure.message : Failure → String
  | cellRun message => message
  | yaml message => message
  | timeout message => message
  | other e => e.message

/-- `except (CellRunError, OSError, ValueError, yaml.YAMLError)`. -/
def Failure.caught : Failure → Bool
  | cellRun _ => true
  | yaml _ => true
  | timeout _ => false
  | other e => e.caughtBy [.osError, .valueError]

/-- `Kubectl.run`, for what `subprocess.run` does. -/
def kubectlRun : Except Failure String → Except Failure String
  | .error (.other e) =>
    if e.caughtBy [.fileNotFoundError] then .error (.cellRun "kubectl is required")
    else if e.caughtBy [.calledProcessError] then
      .error (.cellRun ("kubectl command failed: " ++ e.message))
    else .error (.other e)
  | reply => reply

/-! ### Rows -/

/-- A level of a snapshot; what is missing, or is not of the type it should have, is not there. -/
structure Level where
  kind : Option String
  path : Option String
  weight : Option String
  quota : Option String
  period : Option String
  cpuStat : Option (List (String × String))
  pressure : Option (List (String × String))
  memory : Option (List (String × String))

/-- A snapshot that `snapshot_pod` accepts: it has levels. -/
structure Snapshot where
  capturedAt : Option String
  levels : List (Option Level)
  ne_nil : levels ≠ []

/-- What `cpu_stat_deltas` gives for a level. -/
structure Delta where
  kind : Option String
  path : Option String
  stats : Option (List (String × ℤ))

/-- A row of `cgroups.csv`, without the columns that all rows of the run share. -/
structure CgroupRow where
  capturedAt : String
  window : String
  level : String
  path : String
  key : String
  value : String
  unit : String

/-- A row of `metrics.csv`, without the columns that all rows of the run share. -/
structure MetricRow where
  timestamp : String
  source : String
  metric : String
  value : String
  unit : String
  labels : String

/-- A row of `blocks.csv`. -/
structure BlockRow where
  phase : String
  runId : String
  blockId : ℤ
  seed : ℤ
  position : ℤ
  cellId : String
  workload : String
  policy : String
  condition : String
  node : String
  podUid : String
  status : String
  startedAt : String
  finishedAt : String

/-- `CPU_STAT_KEYS`. -/
def cpuStatKeys : List String := ["usage_usec", "nr_periods", "nr_throttled", "throttled_usec"]

/-- The unit of a counter. -/
def counterUnit (key : String) : String :=
  if "usec".toList.isSuffixOf key.toList then "microseconds" else "count"

/-- The keys, values and units of a level. -/
def levelValues (level : Level) (cpuStat pressure memory : List (String × String)) :
    List (String × Option String × String) :=
  [("cpu.weight", level.weight, "weight"),
    ("cpu.max.quota", some (level.quota.getD "max"), "microseconds"),
    ("cpu.max.period", level.period, "microseconds")] ++
  (cpuStatKeys.map fun key => ("cpu.stat." ++ key, cpuStat.lookup key, counterUnit key)) ++
  (["some_total_usec", "full_total_usec"].map fun key =>
    ("cpu.pressure." ++ key, pressure.lookup key, "microseconds")) ++
  ["current_bytes", "peak_bytes"].map fun key => ("memory." ++ key, memory.lookup key, "bytes")

/-- The rows of a level. -/
def levelRows (capturedAt window : String) : Option Level → Except Failure (List CgroupRow)
  | none => .error (.cellRun "cgroup snapshot has an invalid level")
  | some level =>
    match level.kind, level.path with
    | some kind, some path =>
      match level.cpuStat, level.pressure, level.memory with
      | some cpuStat, some pressure, some memory =>
        Py.traverse (fun (key, value, unit) =>
          match value with
          | some value => .ok ⟨capturedAt, window, kind, path, key, value, unit⟩
          | none => .error (.cellRun ("cgroup snapshot is missing " ++ key)))
          (levelValues level cpuStat pressure memory)
      | _, _, _ => .error (.cellRun "cgroup snapshot is missing required counters")
    | _, _ => .error (.cellRun "cgroup snapshot level is missing kind or path")

/-- `_cgroup_rows`. -/
def cgroupRows (record : Snapshot) (window : String) : Except Failure (List CgroupRow) :=
  match record.capturedAt with
  | some capturedAt => (Py.traverse (levelRows capturedAt window) record.levels).map List.flatten
  | none => .error (.cellRun "cgroup snapshot is incomplete")

/-- The rows of a delta. -/
def deltaLevelRows (capturedAt : String) (delta : Delta) : Except Failure (List CgroupRow) :=
  match delta.kind, delta.path, delta.stats with
  | some kind, some path, some stats =>
    Py.traverse (fun key =>
      match stats.lookup key with
      | some value => .ok ⟨capturedAt, "measurement_delta", kind, path, "cpu.stat." ++ key,
          toString value, counterUnit key⟩
      | none => .error (.cellRun ("cgroup delta is missing " ++ key))) cpuStatKeys
  | _, _, _ => .error (.cellRun "cgroup delta is incomplete")

/-- `_delta_rows`, for what `cpu_stat_deltas` returns or raises. -/
def deltaRows (after : Snapshot) (deltas : Except Failure (List Delta)) :
    Except Failure (List CgroupRow) :=
  match after.capturedAt with
  | none => .error (.cellRun "end cgroup snapshot has no timestamp")
  | some capturedAt =>
    match deltas with
    | .ok deltas => (Py.traverse (deltaLevelRows capturedAt) deltas).map List.flatten
    | .error (.other e) =>
      .error (if e.caughtBy [.typeError, .valueError] then
        .cellRun ("cannot calculate cgroup deltas: " ++ e.message) else .other e)
    | .error f => .error f

/-! ### An execution -/

/-- The calls in the `try` block. -/
inductive Stage where
  | renderTarget
  | applyTarget
  | applyNoise
  | waitNoise
  | waitTarget
  | podUid
  | writePods
  | snapshotBefore
  | writeStart
  | startScraper
  | warmup
  | startTrace
  | load
  | stopScraper
  | awaitTrace
  | snapshotAfter
  | writeEnd
  | waitTerminal
  | logs
  | parseLoad
  | writeLoad
  deriving DecidableEq

/-- What the scraper has come to when it is stopped. -/
structure Scrape where
  /-- Raised by `join`. -/
  raises : Option Failure
  alive : Bool
  error : Option String
  samples : List MetricRow

/-- What an append does. -/
inductive Append where
  | done
  | broken (written : ℕ) (f : Failure)

/-- What the calls of an execution do. -/
structure Execution where
  podName : String → String → String → String
  mkdir : Option Failure
  raises : Stage → Option Failure
  podUid : String
  before : Snapshot
  after : Snapshot
  deltas : Except Failure (List Delta)
  /-- The scraper, when it is stopped behind the load. -/
  scrape : Scrape
  /-- The scraper, when it is stopped because of an exception. -/
  scrapeAgain : Scrape
  traceCode : ℤ
  traceError : String
  /-- The metrics of the load: name, value and unit. -/
  loadMetrics : List (String × String × String)
  appendCgroups : Append
  appendMetrics : Append
  /-- The trace still runs when it is terminated. -/
  polled : Bool
  /-- Raised while the trace is terminated. -/
  stopTrace : Option Failure
  /-- What `kubectl delete` of a Pod does. -/
  delete : String → Except Failure String
  writeStatus : Option Failure
  appendBlocks : Append
  startedAt : String
  timestamp : String
  finishedAt : String

/-- `MetricsScraper.stop`. -/
def Scrape.stop (scrape : Scrape) : Except Failure (List MetricRow) :=
  match scrape.raises with
  | some f => .error f
  | none =>
    if scrape.alive then .error (.cellRun "metrics scraper did not stop")
    else
      match scrape.error with
      | some message => .error (.cellRun message)
      | none =>
        if scrape.samples = [] then .error (.cellRun "metrics scraper recorded no samples")
        else .ok scrape.samples

/-- What this run has appended to the files, and the variables of `run_cell`. -/
structure Lab where
  /-- The rows in `cgroups.csv`. -/
  cgroups : List CgroupRow
  /-- The rows in `metrics.csv`. -/
  metrics : List MetricRow
  /-- The rows in `blocks.csv`. -/
  blocks : List BlockRow
  /-- The Pods whose deletion was attempted. -/
  deletions : List String
  /-- `owned_names`. -/
  owned : List String
  podUid : String
  status : String
  errorText : Option String
  teardown : String
  /-- `scraper is not None`. -/
  scraper : Bool
  /-- `trace_process is not None`. -/
  trace : Bool

/-- A part of the run. -/
abbrev Step (α : Type) := Effect Lab Failure α

/-- `raise`, when a call raises. -/
def mayRaise : Option Failure → Step Unit
  | none => pure ()
  | some f => throw f

variable (x : Execution)

/-- Why a call in the `try` block ends it. -/
def failure (stage : Stage) : Option Failure :=
  match x.raises stage with
  | some f => some f
  | none =>
    match stage with
    | .stopScraper =>
      match x.scrape.stop with
      | .ok _ => none
      | .error f => some f
    | .awaitTrace =>
      if x.traceCode ≠ 0 then some (.cellRun ("trace capture failed: " ++ strip x.traceError))
      else none
    | _ => none

/-- What is assigned before a call. -/
def before (stage : Stage) (lab : Lab) : Lab :=
  match stage with
  | .startScraper => { lab with scraper := true }
  | _ => lab

/-- What is assigned when a call has returned. -/
def after (stage : Stage) (lab : Lab) : Lab :=
  match stage with
  | .podUid => { lab with podUid := x.podUid }
  | .stopScraper => { lab with scraper := false }
  | .startTrace => { lab with trace := true }
  | .awaitTrace => { lab with trace := false }
  | _ => lab

/-- One call. -/
def perform (stage : Stage) : Step Unit := do
  modify (before stage)
  mayRaise (failure x stage)
  modify (after x stage)

/-- The calls of the `try` block, in order. -/
def stages (cell : Cell) (args : Args) : List Stage :=
  List.flatten
    [[.renderTarget, .applyTarget],
      if cell.condition = "contention" then [.applyNoise, .waitNoise] else [],
      [.waitTarget, .podUid, .writePods, .snapshotBefore, .writeStart, .startScraper, .warmup],
      if args.trace then [.startTrace] else [],
      [.load, .stopScraper],
      if args.trace then [.awaitTrace] else [],
      [.snapshotAfter, .writeEnd],
      if cell.workload ∈ ["cpu-bound", "memory-bound"] then [.waitTerminal, .logs, .parseLoad] else [],
      [.writeLoad]]

/-- The rows of the load. -/
def loadRows (cell : Cell) : List MetricRow :=
  x.loadMetrics.map fun (metric, value, unit) =>
    ⟨x.timestamp, "loadgen", metric, value, unit, "\x7b\"cell_id\": \"" ++ cell.cellId ++ "\"\x7d"⟩

/-- The rows of the run. -/
def makeRows (cell : Cell) : Except Failure (List CgroupRow × List MetricRow) :=
  x.scrape.stop.bind fun samples =>
  (cgroupRows x.before "start").bind fun start =>
  (cgroupRows x.after "end").bind fun stop =>
  (deltaRows x.after x.deltas).map fun delta => (start ++ stop ++ delta, samples ++ loadRows x cell)

/-- `append_csv`; when it raises, some rows may have been written. -/
def appendCsv {α : Type} (append : Append) (rows : List α) (add : List α → Lab → Lab) : Step Unit :=
  if rows = [] then pure ()
  else
    match append with
    | .done => modify (add rows)
    | .broken written f => modify (add (rows.take written)) >>= fun _ => throw f

/-- The rows are written, and the cell is complete. -/
def store (rows : List CgroupRow × List MetricRow) : Step Unit := do
  appendCsv x.appendCgroups rows.1 fun rows lab => { lab with cgroups := lab.cgroups ++ rows }
  appendCsv x.appendMetrics rows.2 fun rows lab => { lab with metrics := lab.metrics ++ rows }
  modify fun lab => { lab with status := "complete" }

/-- The `try` block. -/
def measure (cell : Cell) (args : Args) : Step Unit := do
  forEach (perform x) (stages cell args)
  let rows ← lift (makeRows x cell)
  store x rows

/-- The scraper is stopped because of an exception with a text. -/
def stopAgain (text : String) (scraper : Bool) : Step Unit :=
  if scraper then
    match x.scrapeAgain.stop with
    | .ok _ => pure ()
    | .error (.cellRun message) =>
      modify fun lab => { lab with errorText := some (text ++ "; " ++ message) }
    | .error f => throw f
  else pure ()

/-- The `except` clause. -/
def handle (f : Failure) : Step Unit :=
  if f.caught then do
    modify fun lab => { lab with errorText := some f.message }
    let lab ← get
    stopAgain x f.message lab.scraper
  else throw f

/-- What `_delete_pod` returns or raises: only a `CellRunError` is caught. -/
def deletion (name : String) : Except Failure Bool :=
  match kubectlRun (x.delete name) with
  | .ok _ => .ok true
  | .error (.cellRun _) => .ok false
  | .error f => .error f

/-- `_delete_pod`; the name, when the Pod could not be deleted. -/
def deletePod (name : String) : Step (List String) := do
  modify fun lab => { lab with deletions := lab.deletions ++ [name] }
  let deleted ← lift (deletion x name)
  pure (if deleted then [] else [name])

/-- What a Pod that could not be deleted changes. -/
def noteFailed (failed : List String) (lab : Lab) : Lab :=
  if failed ≠ [] then
    { lab with
      teardown := "failed"
      errorText := some (lab.errorText.getD
        ("could not delete owned Pod(s): " ++ ", ".intercalate failed))
      status := "failed" }
  else lab

/-- The row of `blocks.csv`. -/
def blockRow (cell : Cell) (args : Args) (lab : Lab) : BlockRow :=
  { phase := args.phase
    runId := args.runId
    blockId := args.blockId
    seed := args.seed
    position := args.position
    cellId := cell.cellId
    workload := cell.workload
    policy := cell.policy
    condition := cell.condition
    node := args.node
    podUid := lab.podUid
    status := lab.status
    startedAt := x.startedAt
    finishedAt := x.finishedAt }

/-- The `finally` block. -/
def cleanUp (cell : Cell) (args : Args) : Step Unit := do
  let lab ← get
  mayRaise (if lab.trace && x.polled then x.stopTrace else none)
  let failed ← collect (deletePod x) lab.owned
  modify (noteFailed failed.flatten)
  mayRaise x.writeStatus
  let lab ← get
  appendCsv x.appendBlocks [blockRow x cell args lab] fun rows lab =>
    { lab with blocks := lab.blocks ++ rows }

/-- `CellResult`. -/
structure CellResult where
  status : String
  podUid : String
  startedAt : String
  finishedAt : String
  error : Option String
  teardown : String

/-- `cell_from_id`. -/
def cellFromId (cellId : String) : Except Failure Cell :=
  match cells.find? fun cell => cell.cellId = cellId with
  | some cell => .ok cell
  | none => .error (.other ⟨.valueError, "unknown cell id: " ++ cellId⟩)

/-- `owned_names`. -/
def ownedNames (cell : Cell) (args : Args) : List String :=
  x.podName cell.workload cell.policy args.runId ::
    if cell.condition = "contention" then [x.podName "noise" cell.cellId args.runId] else []

/-- `run_cell`. -/
def runCell (args : Args) : Step CellResult := do
  let cell ← lift (cellFromId args.cellId)
  mayRaise x.mkdir
  modify fun lab => { lab with owned := ownedNames x cell args }
  tryFinally (tryCatch (measure x cell args) (handle x)) (cleanUp x cell args)
  let lab ← get
  pure ⟨lab.status, lab.podUid, x.startedAt, x.finishedAt, lab.errorText, lab.teardown⟩

/-- The variables before the first assignment of each, and nothing appended. -/
def begin : Lab := ⟨[], [], [], [], [], "", "failed", none, "complete", false, false⟩

/-! ### What the files should say -/

/-- `blocks.csv` records the cell as complete. -/
def Recorded (lab : Lab) : Prop := ∃ row ∈ lab.blocks, row.status = "complete"

/-- Rows of the run are in the files exactly when the cell is recorded as complete, and the deletion of
every owned Pod was attempted once. -/
structure Kept (lab : Lab) : Prop where
  cgroups : lab.cgroups ≠ [] ↔ Recorded lab
  metrics : lab.metrics ≠ [] ↔ Recorded lab
  deletions : lab.deletions = lab.owned

/-- An append that leaves rows in the file. -/
def Append.Writes : Append → Prop
  | done => True
  | broken written _ => written ≠ 0

/-- No call before the appends fails, and the snapshots have all counters. -/
structure Measured (cell : Cell) (args : Args) : Prop where
  stages : ∀ stage ∈ stages cell args, failure x stage = none
  rows : ∃ rows, makeRows x cell = .ok rows

/-- A row is written to `cgroups.csv`. -/
def Written (cell : Cell) (args : Args) : Prop := Measured x cell args ∧ x.appendCgroups.Writes

/-- Nothing fails behind the first append. -/
structure Finishes (cell : Cell) (args : Args) : Prop where
  cgroups : x.appendCgroups = .done
  metrics : x.appendMetrics = .done
  deletions : ∀ name ∈ ownedNames x cell args, deletion x name = .ok true
  status : x.writeStatus = none
  blocks : x.appendBlocks.Writes

/-- A trace runs when it was started and was not waited for. -/
def traceStep (running : Bool) : Stage → Bool
  | .startTrace => true
  | .awaitTrace => false
  | _ => running

/-- A trace was started and not waited for when the first call fails. -/
def traceLeft (cell : Cell) (args : Args) : Bool :=
  ((stages cell args).takeWhile fun stage => (failure x stage).isNone).foldl traceStep false

/-- Every deletion is attempted: a trace that still runs is stopped without an exception, and no
deletion but the last raises what is not caught. -/
structure Attempts (cell : Cell) (args : Args) : Prop where
  trace : traceLeft x cell args = true → x.polled = true → x.stopTrace = none
  deletions : ∀ name ∈ (ownedNames x cell args).dropLast, ∃ deleted, deletion x name = .ok deleted

/-! ### The calls of the `try` block -/

section Try

variable {x} {cell : Cell} {args : Args}

/-- The files and the variables that the calls leave alone. -/
structure SameFiles (lab lab' : Lab) : Prop where
  cgroups : lab'.cgroups = lab.cgroups
  metrics : lab'.metrics = lab.metrics
  blocks : lab'.blocks = lab.blocks
  deletions : lab'.deletions = lab.deletions
  owned : lab'.owned = lab.owned
  status : lab'.status = lab.status

instance : IsPreorder Lab SameFiles where
  refl _ := ⟨rfl, rfl, rfl, rfl, rfl, rfl⟩
  trans _ _ _ h h' := ⟨h'.cgroups.trans h.cgroups, h'.metrics.trans h.metrics,
    h'.blocks.trans h.blocks, h'.deletions.trans h.deletions, h'.owned.trans h.owned,
    h'.status.trans h.status⟩

theorem moves_mayRaise {R : Lab → Lab → Prop} [Std.Refl R] (f : Option Failure) :
    Moves R (mayRaise f) := by
  cases f with
  | none => exact moves_pure ()
  | some f => exact moves_throw f

theorem sameFiles_perform (stage : Stage) : Moves SameFiles (perform x stage) := by
  refine Moves.bind (fun lab => ?_) fun _ => (moves_mayRaise _).bind fun _ lab => ?_
  · cases stage <;> exact ⟨rfl, rfl, rfl, rfl, rfl, rfl⟩
  · cases stage <;> exact ⟨rfl, rfl, rfl, rfl, rfl, rfl⟩

theorem perform_of_none {stage : Stage} {lab : Lab} (h : failure x stage = none) :
    perform x stage lab = (.ok (), after x stage (before stage lab)) := by
  unfold perform
  rw [h]
  rfl

theorem perform_of_some {stage : Stage} {f : Failure} {lab : Lab} (h : failure x stage = some f) :
    perform x stage lab = (.error f, before stage lab) := by
  unfold perform
  rw [h]
  rfl

theorem trace_after (stage : Stage) (lab : Lab) :
    (after x stage (before stage lab)).trace = traceStep lab.trace stage := by
  cases stage <;> rfl

theorem trace_before (stage : Stage) (lab : Lab) : (before stage lab).trace = lab.trace := by
  cases stage <;> rfl

/-- The calls return exactly when none of them fails. -/
theorem perform_all_isOk {list : List Stage} {lab : Lab} :
    (∃ lab', forEach (perform x) list lab = (.ok (), lab')) ↔
      ∀ stage ∈ list, failure x stage = none := by
  induction list generalizing lab with
  | nil => exact ⟨fun _ => by simp, fun _ => ⟨lab, rfl⟩⟩
  | cons stage list ih =>
    rw [List.forall_mem_cons]
    cases h : failure x stage with
    | some f =>
      refine ⟨fun ⟨lab', hrun⟩ => ?_, fun hnone => by cases hnone.1⟩
      cases (bind_of_error (perform_of_some h)).symm.trans hrun
    | none =>
      rw [show forEach (perform x) (stage :: list) lab = _ from bind_of_ok (perform_of_none h), ih]
      exact ⟨fun hall => ⟨rfl, hall⟩, And.right⟩

theorem trace_perform_all {list : List Stage} {lab : Lab} :
    (forEach (perform x) list lab).2.trace =
      (list.takeWhile fun stage => (failure x stage).isNone).foldl traceStep lab.trace := by
  induction list generalizing lab with
  | nil => rfl
  | cons stage list ih =>
    cases h : failure x stage with
    | some f =>
      rw [show forEach (perform x) (stage :: list) lab = _ from bind_of_error (perform_of_some h),
        List.takeWhile_cons_of_neg (by simp [h])]
      exact trace_before stage lab
    | none =>
      rw [show forEach (perform x) (stage :: list) lab = _ from bind_of_ok (perform_of_none h), ih,
        List.takeWhile_cons_of_pos (by simp [h]), List.foldl_cons, trace_after]

/-! #### Rows -/

theorem levelRows_ne_nil {capturedAt window : String} {level : Option Level}
    {rows : List CgroupRow} (h : levelRows capturedAt window level = .ok rows) : rows ≠ [] := by
  unfold levelRows at h
  split at h
  · cases h
  split at h
  · split at h
    · have hlength := (traverse_eq_ok.1 h).length_eq
      intro hnil
      simp [levelValues, hnil] at hlength
    · cases h
  · cases h

/-- A snapshot has levels, and each level has rows. -/
theorem cgroupRows_ne_nil {record : Snapshot} {window : String} {rows : List CgroupRow}
    (h : cgroupRows record window = .ok rows) : rows ≠ [] := by
  unfold cgroupRows at h
  split at h
  · rename_i capturedAt _
    obtain ⟨lists, hlists, rfl⟩ := map_eq_ok.1 h
    obtain ⟨level, hlevel⟩ := List.exists_mem_of_ne_nil _ record.ne_nil
    obtain ⟨list, hlist⟩ := traverse_isOk.1 ⟨lists, hlists⟩ level hlevel
    have hmem : list ∈ lists := (mem_traverse hlists).2 ⟨level, hlevel, hlist⟩
    intro hnil
    exact levelRows_ne_nil hlist (List.flatten_eq_nil_iff.1 hnil list hmem)
  · cases h

theorem stop_ne_nil {scrape : Scrape} {samples : List MetricRow} (h : scrape.stop = .ok samples) :
    samples ≠ [] := by
  unfold Scrape.stop at h
  split at h
  · cases h
  split_ifs at h with halive hnil
  · split at h <;> cases h
  · split at h
    · cases h
    · cases h
      exact hnil

theorem makeRows_ne_nil {rows : List CgroupRow × List MetricRow} (h : makeRows x cell = .ok rows) :
    rows.1 ≠ [] ∧ rows.2 ≠ [] := by
  obtain ⟨samples, hsamples, hrest⟩ := bind_eq_ok.1 h
  obtain ⟨start, hstart, hrest₁⟩ := bind_eq_ok.1 hrest
  obtain ⟨stop, -, hrest₂⟩ := bind_eq_ok.1 hrest₁
  obtain ⟨delta, -, rfl⟩ := map_eq_ok.1 hrest₂
  exact ⟨by simp [cgroupRows_ne_nil hstart], by simp [stop_ne_nil hsamples]⟩

/-! #### The end of the `try` block -/

/-- What is known when the `try` block and its `except` clause are over. -/
structure AfterTry (x : Execution) (cell : Cell) (args : Args) (lab : Lab) : Prop where
  blocks : lab.blocks = []
  deletions : lab.deletions = []
  owned : lab.owned = ownedNames x cell args
  trace : lab.trace = traceLeft x cell args
  cgroups : lab.cgroups ≠ [] ↔ Written x cell args
  metrics : lab.metrics ≠ [] ↔
    Measured x cell args ∧ x.appendCgroups = .done ∧ x.appendMetrics.Writes
  status : lab.status = "complete" ↔
    Measured x cell args ∧ x.appendCgroups = .done ∧ x.appendMetrics = .done

/-- Nothing changes but the text of the error. -/
def Quiet (lab lab' : Lab) : Prop := SameFiles lab lab' ∧ lab'.trace = lab.trace

instance : IsPreorder Lab Quiet where
  refl lab := ⟨refl_of SameFiles lab, rfl⟩
  trans _ _ _ h h' := ⟨trans_of SameFiles h.1 h'.1, h'.2.trans h.2⟩

theorem AfterTry.quiet {lab lab' : Lab} (h : AfterTry x cell args lab) (hquiet : Quiet lab lab') :
    AfterTry x cell args lab' := by
  obtain ⟨hsame, htrace⟩ := hquiet
  exact ⟨hsame.blocks.trans h.blocks, hsame.deletions.trans h.deletions, hsame.owned.trans h.owned,
    htrace.trans h.trace, by rw [hsame.cgroups, h.cgroups], by rw [hsame.metrics, h.metrics],
    by rw [hsame.status, h.status]⟩

theorem quiet_handle (f : Failure) : Moves Quiet (handle x f) := by
  have htext : ∀ text, Moves Quiet (Effect.modify fun lab : Lab =>
      { lab with errorText := text } : Step Unit) :=
    fun _ _ => ⟨⟨rfl, rfl, rfl, rfl, rfl, rfl⟩, rfl⟩
  unfold handle
  split_ifs
  · refine (htext _).bind fun _ => moves_get.bind fun lab => ?_
    unfold stopAgain
    split_ifs
    · split
      · exact moves_pure ()
      · exact htext _
      · exact moves_throw _
    · exact moves_pure ()
  · exact moves_throw f

theorem appendCsv_of_done {α : Type} {rows : List α} {add : List α → Lab → Lab} {lab : Lab}
    (hne : rows ≠ []) : appendCsv .done rows add lab = (.ok (), add rows lab) := by
  rw [appendCsv, if_neg hne]
  rfl

theorem appendCsv_of_broken {α : Type} {rows : List α} {add : List α → Lab → Lab} {lab : Lab}
    {written : ℕ} {f : Failure} (hne : rows ≠ []) :
    appendCsv (.broken written f) rows add lab = (.error f, add (rows.take written) lab) := by
  rw [appendCsv, if_neg hne]
  rfl

theorem take_ne_nil {α : Type} {rows : List α} {written : ℕ} (hne : rows ≠ []) :
    rows.take written ≠ [] ↔ written ≠ 0 := by
  rw [ne_eq, List.take_eq_nil_iff, not_or, and_iff_left hne]

/-- The rows that are made and what the appends do say what is in the files. -/
theorem afterTry (lab : Lab) (hempty : lab.cgroups = [] ∧ lab.metrics = [] ∧ lab.blocks = [] ∧
      lab.deletions = [] ∧ lab.status = "failed" ∧ lab.trace = false)
    (howned : lab.owned = ownedNames x cell args) :
    AfterTry x cell args (Effect.tryCatch (measure x cell args) (handle x) lab).2 := by
  obtain ⟨hcgroups, hmetrics, hblocks, hdeletions, hstatus, htrace⟩ := hempty
  -- an exception is handled without a change of the files
  have hcatch : ∀ f lab', measure x cell args lab = (.error f, lab') →
      AfterTry x cell args lab' →
      AfterTry x cell args (Effect.tryCatch (measure x cell args) (handle x) lab).2 := by
    intro f lab' hrun hafter
    rw [tryCatch_of_error hrun]
    exact hafter.quiet (quiet_handle f lab')
  obtain ⟨r, lab₁, hcalls⟩ : ∃ r lab₁, forEach (perform x) (stages cell args) lab = (r, lab₁) :=
    ⟨_, _, rfl⟩
  have hmoves : Moves SameFiles (forEach (perform x) (stages cell args)) :=
    moves_forEach fun stage _ => sameFiles_perform stage
  have hsame := hmoves lab
  have htrace₁ : (forEach (perform x) (stages cell args) lab).2.trace = traceLeft x cell args := by
    rw [trace_perform_all, htrace]
    rfl
  rw [hcalls] at hsame htrace₁
  have hbase : ¬ Measured x cell args → AfterTry x cell args lab₁ := fun hnot =>
    { blocks := hsame.blocks.trans hblocks
      deletions := hsame.deletions.trans hdeletions
      owned := hsame.owned.trans howned
      trace := htrace₁
      cgroups := iff_of_false (not_not.2 (hsame.cgroups.trans hcgroups)) fun h => hnot h.1
      metrics := iff_of_false (not_not.2 (hsame.metrics.trans hmetrics)) fun h => hnot h.1
      status := iff_of_false (by rw [hsame.status, hstatus]; decide) fun h => hnot h.1 }
  cases r with
  | error f =>
    refine hcatch f lab₁ (bind_of_error hcalls) (hbase fun h => ?_)
    obtain ⟨lab', hrun⟩ := perform_all_isOk.2 h.stages
    cases hcalls.symm.trans hrun
  | ok _ =>
    have hstages := perform_all_isOk.1 ⟨lab₁, hcalls⟩
    cases hrows : makeRows x cell with
    | error f =>
      have hlift : (lift (makeRows x cell) : Step _) lab₁ = (.error f, lab₁) := by rw [lift, hrows]
      refine hcatch f lab₁ ((bind_of_ok hcalls).trans (bind_of_error hlift)) (hbase fun h => ?_)
      obtain ⟨rows, h⟩ := h.rows
      cases hrows.symm.trans h
    | ok rows =>
      have hmeasured : Measured x cell args := ⟨hstages, rows, hrows⟩
      obtain ⟨hne, hne'⟩ := makeRows_ne_nil hrows
      have hlift : (lift (makeRows x cell) : Step _) lab₁ = (.ok rows, lab₁) := by rw [lift, hrows]
      have hbegin : measure x cell args lab = store x rows lab₁ :=
        (bind_of_ok hcalls).trans (bind_of_ok hlift)
      have hc : lab₁.cgroups = [] := hsame.cgroups.trans hcgroups
      have hm : lab₁.metrics = [] := hsame.metrics.trans hmetrics
      have hs : lab₁.status ≠ "complete" := by rw [hsame.status, hstatus]; decide
      have hb := hsame.blocks.trans hblocks
      have hd := hsame.deletions.trans hdeletions
      have ho := hsame.owned.trans howned
      unfold store at hbegin
      cases hfirst : x.appendCgroups with
      | broken written f =>
        rw [hfirst] at hbegin
        refine hcatch f _ (hbegin.trans (bind_of_error (appendCsv_of_broken hne)))
          ⟨hb, hd, ho, htrace₁, ?_, ?_, ?_⟩
        · rw [Written, hfirst, hc, List.nil_append, take_ne_nil hne, and_iff_right hmeasured]
          rfl
        · exact iff_of_false (not_not.2 hm) fun h => by cases hfirst.symm.trans h.2.1
        · exact iff_of_false hs fun h => by cases hfirst.symm.trans h.2.1
      | done =>
        rw [hfirst] at hbegin
        have hrun := hbegin.trans (bind_of_ok (appendCsv_of_done hne))
        have hwritten : Written x cell args := ⟨hmeasured, by rw [hfirst]; trivial⟩
        have hcgroups' : lab₁.cgroups ++ rows.1 ≠ [] ↔ Written x cell args :=
          iff_of_true (by simp [hne]) hwritten
        cases hsecond : x.appendMetrics with
        | broken written f =>
          rw [hsecond] at hrun
          refine hcatch f _ (hrun.trans (bind_of_error (appendCsv_of_broken hne')))
            ⟨hb, hd, ho, htrace₁, hcgroups', ?_, ?_⟩
          · rw [hfirst, hsecond, hm, List.nil_append, take_ne_nil hne', and_iff_right hmeasured,
              and_iff_right rfl]
            rfl
          · exact iff_of_false hs fun h => by cases hsecond.symm.trans h.2.2
        | done =>
          rw [hsecond] at hrun
          rw [tryCatch_of_ok (hrun.trans (bind_of_ok (appendCsv_of_done hne')))]
          refine ⟨hb, hd, ho, htrace₁, hcgroups', ?_, ?_⟩
          · exact iff_of_true (by simp [hne']) ⟨hmeasured, hfirst, by rw [hsecond]; trivial⟩
          · exact iff_of_true rfl ⟨hmeasured, hfirst, hsecond⟩

end Try

/-! ### The `finally` block -/

section CleanUp

variable {x} {cell : Cell} {args : Args} {lab : Lab}

/-- The Pods whose deletion is attempted: the first exception that is not caught is the end. -/
def attempted (x : Execution) : List String → List String
  | [] => []
  | name :: names => name :: match deletion x name with
    | .ok _ => attempted x names
    | .error _ => []

theorem attempted_eq_self {names : List String} :
    attempted x names = names ↔ ∀ name ∈ names.dropLast, ∃ deleted, deletion x name = .ok deleted := by
  induction names with
  | nil => exact iff_of_true rfl (by simp)
  | cons name names ih =>
    cases names with
    | nil =>
      refine iff_of_true ?_ (by simp)
      rw [attempted]
      cases deletion x name <;> rfl
    | cons second names =>
      rw [List.dropLast_cons_cons, List.forall_mem_cons, ← ih, attempted]
      cases deletion x name <;> simp

/-- Every deletion is attempted until one raises; the names that are left say which failed. -/
theorem collect_deletePod (names : List String) (lab : Lab) :
    ∃ r, collect (deletePod x) names lab =
        (r, { lab with deletions := lab.deletions ++ attempted x names }) ∧
      ((∃ lists, r = .ok lists ∧ lists.flatten = []) ↔
        ∀ name ∈ names, deletion x name = .ok true) := by
  induction names generalizing lab with
  | nil =>
    refine ⟨.ok [], ?_, iff_of_true ⟨[], rfl, rfl⟩ (by simp)⟩
    show (Except.ok [], lab) = _
    rw [attempted, List.append_nil]
  | cons name names ih =>
    rw [List.forall_mem_cons]
    -- a deletion that raises ends the loop, one that fails leaves its name
    cases hdelete : deletion x name with
    | error f =>
      have hrun : deletePod x name lab =
          (.error f, { lab with deletions := lab.deletions ++ [name] }) := by
        unfold deletePod
        rw [hdelete]
        rfl
      refine ⟨.error f, ?_, iff_of_false ?_ ?_⟩
      · rw [attempted, hdelete]
        exact bind_of_error hrun
      · rintro ⟨lists, h, -⟩
        cases h
      · rintro ⟨h, -⟩
        cases h
    | ok deleted =>
      have hrun : deletePod x name lab = (.ok (if deleted then [] else [name]),
          { lab with deletions := lab.deletions ++ [name] }) := by
        unfold deletePod
        rw [hdelete]
        rfl
      obtain ⟨r, hrest, hiff⟩ := ih { lab with deletions := lab.deletions ++ [name] }
      have hstate : lab.deletions ++ [name] ++ attempted x names =
          lab.deletions ++ attempted x (name :: names) := by
        rw [attempted, hdelete, List.append_assoc]
        rfl
      rw [hstate] at hrest
      cases r with
      | error f =>
        refine ⟨.error f, (bind_of_ok hrun).trans (bind_of_error hrest), iff_of_false ?_ fun h => ?_⟩
        · rintro ⟨lists, h, -⟩
          cases h
        · obtain ⟨lists, h, -⟩ := hiff.2 h.2
          cases h
      | ok lists =>
        refine ⟨_, (bind_of_ok hrun).trans ((bind_of_ok hrest).trans rfl), ?_⟩
        rw [← hiff]
        cases deleted <;> simp

/-- What the `finally` block leaves behind. -/
structure Cleaned (x : Execution) (lab lab' : Lab) : Prop where
  cgroups : lab'.cgroups = lab.cgroups
  metrics : lab'.metrics = lab.metrics
  owned : lab'.owned = lab.owned
  deletions : lab'.deletions = lab.deletions ++ attempted x lab.owned
  blocks : lab.blocks = [] → (Recorded lab' ↔ lab.status = "complete" ∧
    (∀ name ∈ lab.owned, deletion x name = .ok true) ∧ x.writeStatus = none ∧ x.appendBlocks.Writes)

/-- Pods that could not be deleted change the status, and nothing in the files. -/
theorem noteFailed_same (failed : List String) (lab : Lab) :
    (noteFailed failed lab).cgroups = lab.cgroups ∧ (noteFailed failed lab).metrics = lab.metrics ∧
      (noteFailed failed lab).owned = lab.owned ∧
      (noteFailed failed lab).deletions = lab.deletions ∧
      (noteFailed failed lab).blocks = lab.blocks := by
  unfold noteFailed
  split_ifs <;> exact ⟨rfl, rfl, rfl, rfl, rfl⟩

theorem noteFailed_status {failed : List String} :
    (noteFailed failed lab).status = "complete" ↔ failed = [] ∧ lab.status = "complete" := by
  unfold noteFailed
  split_ifs with h
  · exact iff_of_false (show "failed" ≠ "complete" by decide) fun h' => h h'.1
  · exact ⟨fun h' => ⟨not_not.1 h, h'⟩, And.right⟩

/-- The row is in the file when the append leaves it there. -/
theorem recorded_append (row : BlockRow) (hblocks : lab.blocks = []) :
    Recorded (appendCsv x.appendBlocks [row] (fun rows lab =>
      { lab with blocks := lab.blocks ++ rows }) lab).2 ↔
        row.status = "complete" ∧ x.appendBlocks.Writes := by
  have hne : [row] ≠ [] := List.cons_ne_nil row []
  cases happend : x.appendBlocks with
  | done =>
    rw [appendCsv_of_done hne]
    simp [Recorded, hblocks, Append.Writes]
  | broken written f =>
    rw [appendCsv_of_broken hne]
    cases written <;> simp [Recorded, hblocks, Append.Writes]

theorem appendBlocks_same (row : BlockRow) (lab : Lab) :
    let lab' := (appendCsv x.appendBlocks [row] (fun rows lab =>
      { lab with blocks := lab.blocks ++ rows }) lab).2
    lab'.cgroups = lab.cgroups ∧ lab'.metrics = lab.metrics ∧ lab'.owned = lab.owned ∧
      lab'.deletions = lab.deletions := by
  cases happend : x.appendBlocks with
  | done =>
    rw [appendCsv_of_done (List.cons_ne_nil row [])]
    exact ⟨rfl, rfl, rfl, rfl⟩
  | broken written f =>
    rw [appendCsv_of_broken (List.cons_ne_nil row [])]
    exact ⟨rfl, rfl, rfl, rfl⟩

theorem not_recorded (h : lab.blocks = []) : ¬ Recorded lab := by
  rintro ⟨row, hrow, -⟩
  rw [h] at hrow
  cases hrow

/-- When a trace that still runs can be stopped, the deletions are attempted; the cell is recorded
when they succeed and the files can be written. -/
theorem cleaned_cleanUp (hstop : (if lab.trace && x.polled then x.stopTrace else none) = none) :
    Cleaned x lab (cleanUp x cell args lab).2 := by
  obtain ⟨r, hdeletes, hiff⟩ := collect_deletePod (x := x) lab.owned lab
  have hrun : cleanUp x cell args lab = (collect (deletePod x) lab.owned >>= fun failed =>
      Effect.modify (noteFailed failed.flatten) >>= fun _ => mayRaise x.writeStatus >>= fun _ =>
      Effect.get >>= fun lab => appendCsv x.appendBlocks [blockRow x cell args lab] fun rows lab =>
        { lab with blocks := lab.blocks ++ rows }) lab := by
    have hfirst : cleanUp x cell args lab = (mayRaise (if lab.trace && x.polled then x.stopTrace
      else none) >>= fun _ => _) lab := rfl
    rw [hfirst, hstop]
    rfl
  -- what an error of a deletion skips is the record; the deletions before it stay
  cases r with
  | error f =>
    rw [hrun, bind_of_error hdeletes]
    refine ⟨rfl, rfl, rfl, rfl, fun hblocks => iff_of_false (not_recorded hblocks) fun h => ?_⟩
    obtain ⟨lists, heq, -⟩ := hiff.2 h.2.1
    cases heq
  | ok lists =>
    rw [bind_of_ok hdeletes] at hrun
    obtain ⟨lab₁, hlab₁⟩ : ∃ lab₁, lab₁ = noteFailed lists.flatten
      { lab with deletions := lab.deletions ++ attempted x lab.owned } := ⟨_, rfl⟩
    have hall : lists.flatten = [] ↔ ∀ name ∈ lab.owned, deletion x name = .ok true := by
      rw [← hiff]
      exact ⟨fun h => ⟨lists, rfl, h⟩, fun ⟨_, heq, h⟩ => by cases heq; exact h⟩
    obtain ⟨hcgroups, hmetrics, howned, hdeletions, hblocks₁⟩ := noteFailed_same lists.flatten
      { lab with deletions := lab.deletions ++ attempted x lab.owned }
    rw [← hlab₁] at hcgroups hmetrics howned hdeletions hblocks₁
    cases hwrite : x.writeStatus with
    | some f =>
      have hfinal : cleanUp x cell args lab = (.error f, lab₁) := by
        rw [hrun, hwrite, hlab₁]
        rfl
      rw [hfinal]
      refine ⟨hcgroups, hmetrics, howned, hdeletions, fun hblocks => ?_⟩
      refine iff_of_false (not_recorded (hblocks₁.trans hblocks)) fun h => ?_
      cases h.2.2.1.symm.trans hwrite
    | none =>
      have hfinal : cleanUp x cell args lab = appendCsv x.appendBlocks [blockRow x cell args lab₁]
          (fun rows lab => { lab with blocks := lab.blocks ++ rows }) lab₁ := by
        rw [hrun, hwrite, hlab₁]
        rfl
      rw [hfinal]
      obtain ⟨hc, hm, ho, hd⟩ := appendBlocks_same (x := x) (blockRow x cell args lab₁) lab₁
      refine ⟨hc.trans hcgroups, hm.trans hmetrics, ho.trans howned, hd.trans hdeletions,
        fun hblocks => ?_⟩
      rw [recorded_append _ (hblocks₁.trans hblocks), ← hall]
      have hstatus : (blockRow x cell args lab₁).status = "complete" ↔
          lists.flatten = [] ∧ lab.status = "complete" := by
        rw [hlab₁]
        exact noteFailed_status
      rw [hstatus]
      tauto

end CleanUp

/-! ### The whole run -/

section Run

variable {x} {cell : Cell} {args : Args}

theorem kept_cleanUp {lab : Lab} (h : AfterTry x cell args lab) :
    Kept (cleanUp x cell args lab).2 ↔
      (Written x cell args → Finishes x cell args) ∧ Attempts x cell args := by
  cases hstop : (if lab.trace && x.polled then x.stopTrace else none) with
  | some f =>
    -- the block ends before the first deletion
    have hrun : cleanUp x cell args lab = (.error f, lab) := by
      have hfirst : cleanUp x cell args lab = (mayRaise (if lab.trace && x.polled then x.stopTrace
        else none) >>= fun _ => _) lab := rfl
      rw [hfirst, hstop]
      rfl
    rw [hrun]
    refine iff_of_false (fun hkept => ?_) fun hholds => ?_
    · have := hkept.deletions
      rw [h.deletions, h.owned] at this
      cases this
    · split_ifs at hstop with hrunning
      rw [Bool.and_eq_true, h.trace] at hrunning
      rw [hholds.2.trace hrunning.1 hrunning.2] at hstop
      cases hstop
  | none =>
    have hclean : Cleaned x lab (cleanUp x cell args lab).2 := cleaned_cleanUp hstop
    have hcgroups : (cleanUp x cell args lab).2.cgroups ≠ [] ↔ Written x cell args := by
      rw [hclean.cgroups, h.cgroups]
    have hmetrics : (cleanUp x cell args lab).2.metrics ≠ [] ↔
        Measured x cell args ∧ x.appendCgroups = .done ∧ x.appendMetrics.Writes := by
      rw [hclean.metrics, h.metrics]
    have hrecorded : Recorded (cleanUp x cell args lab).2 ↔
        Measured x cell args ∧ Finishes x cell args := by
      rw [hclean.blocks h.blocks, h.status, h.owned]
      exact ⟨fun ⟨⟨h₁, h₂, h₃⟩, h₄, h₅, h₆⟩ => ⟨h₁, h₂, h₃, h₄, h₅, h₆⟩,
        fun ⟨h₁, h₂⟩ => ⟨⟨h₁, h₂.cgroups, h₂.metrics⟩, h₂.deletions, h₂.status, h₂.blocks⟩⟩
    have hdeletions : (cleanUp x cell args lab).2.deletions = (cleanUp x cell args lab).2.owned ↔
        Attempts x cell args := by
      rw [hclean.deletions, hclean.owned, h.deletions, h.owned, List.nil_append, attempted_eq_self]
      refine ⟨fun hall => ⟨fun hleft hpolled => ?_, hall⟩, fun hattempts => hattempts.deletions⟩
      rwa [h.trace, hleft, hpolled] at hstop
    constructor
    · intro hkept
      refine ⟨fun hwritten => ?_, hdeletions.1 hkept.deletions⟩
      exact (hrecorded.1 (hkept.cgroups.1 (hcgroups.2 hwritten))).2
    · rintro ⟨hfinishes, hattempts⟩
      have hiff : Written x cell args ↔ Measured x cell args ∧ Finishes x cell args := by
        refine ⟨fun hwritten => ⟨hwritten.1, hfinishes hwritten⟩, fun ⟨hmeasured, hfinish⟩ => ?_⟩
        exact ⟨hmeasured, by rw [hfinish.cgroups]; trivial⟩
      refine ⟨by rw [hcgroups, hrecorded, hiff], ?_, hdeletions.2 hattempts⟩
      rw [hmetrics, hrecorded, ← hiff]
      constructor
      · rintro ⟨hmeasured, hdone, -⟩
        exact ⟨hmeasured, by rw [hdone]; trivial⟩
      · intro hwritten
        have hfinish := hfinishes hwritten
        exact ⟨hwritten.1, hfinish.cgroups, by rw [hfinish.metrics]; trivial⟩

/-- The state when the names of the Pods are known. -/
def owning (x : Execution) (cell : Cell) (args : Args) : Lab :=
  { begin with owned := ownedNames x cell args }

/-- The state at the end of a run. -/
theorem runCell_state (hcell : cellFromId args.cellId = .ok cell) (hmkdir : x.mkdir = none) :
    (runCell x args begin).2 =
      (cleanUp x cell args
        (Effect.tryCatch (measure x cell args) (handle x) (owning x cell args)).2).2 := by
  have hrun : runCell x args begin = (Effect.tryFinally
      (Effect.tryCatch (measure x cell args) (handle x)) (cleanUp x cell args) >>= fun _ =>
      Effect.get >>= fun lab => pure
        ⟨lab.status, lab.podUid, x.startedAt, x.finishedAt, lab.errorText, lab.teardown⟩)
      (owning x cell args) := by
    unfold runCell
    rw [hcell, hmkdir]
    rfl
  obtain ⟨r, lab, hfinally⟩ : ∃ r lab, Effect.tryFinally (Effect.tryCatch (measure x cell args)
    (handle x)) (cleanUp x cell args) (owning x cell args) = (r, lab) := ⟨_, _, rfl⟩
  have hstate := congrArg Prod.snd hfinally
  rw [tryFinally_state] at hstate
  rw [hrun, hstate]
  cases r with
  | error f => rw [bind_of_error hfinally]
  | ok _ =>
    rw [bind_of_ok hfinally]
    rfl

theorem runCell_of_error {f : Failure} (hcell : cellFromId args.cellId = .error f) :
    (runCell x args begin).2 = begin := by
  have hlift : (lift (cellFromId args.cellId) : Step Cell) begin = (.error f, begin) := by
    rw [lift, hcell]
  rw [show runCell x args begin = (.error f, begin) from bind_of_error hlift]

theorem runCell_of_mkdir {f : Failure} (hcell : cellFromId args.cellId = .ok cell)
    (hmkdir : x.mkdir = some f) : (runCell x args begin).2 = begin := by
  unfold runCell
  rw [hcell, hmkdir]
  rfl

theorem kept_begin : Kept begin :=
  ⟨iff_of_false (not_not.2 rfl) (not_recorded rfl), iff_of_false (not_not.2 rfl) (not_recorded rfl),
    rfl⟩

end Run

/-- **When the files say what happened.**  Whatever the calls do, rows of the run are in both files
exactly when the cell is recorded as complete, and every owned Pod is deleted once, if and only if
nothing fails behind the first row that is written, and every deletion is attempted. -/
theorem kept_iff (args : Args) :
    Kept (runCell x args begin).2 ↔
      ∀ cell, cellFromId args.cellId = .ok cell → x.mkdir = none →
        (Written x cell args → Finishes x cell args) ∧ Attempts x cell args := by
  cases hcell : cellFromId args.cellId with
  | error f =>
    rw [runCell_of_error hcell]
    exact iff_of_true kept_begin fun cell h => by cases h
  | ok cell =>
    cases hmkdir : x.mkdir with
    | some f =>
      rw [runCell_of_mkdir hcell hmkdir]
      exact iff_of_true kept_begin fun cell _ h => by cases h
    | none =>
      rw [runCell_state hcell hmkdir]
      obtain ⟨lab, hlab⟩ : ∃ lab, lab = (Effect.tryCatch (measure x cell args) (handle x)
        (owning x cell args)).2 := ⟨_, rfl⟩
      have hafter : AfterTry x cell args lab :=
        hlab ▸ afterTry (owning x cell args) ⟨rfl, rfl, rfl, rfl, rfl, rfl⟩ rfl
      rw [← hlab]
      refine (kept_cleanUp hafter).trans ⟨fun h cell' heq _ => ?_, fun h => h cell rfl rfl⟩
      cases heq
      exact h

/-! ### A Pod that cannot be deleted -/

/-- A snapshot with one level. -/
def oneLevel : Snapshot where
  capturedAt := some "t"
  levels := [some
    { kind := some "pod"
      path := some "p"
      weight := some "100"
      quota := none
      period := some "100000"
      cpuStat := some (cpuStatKeys.map fun key => (key, "0"))
      pressure := some [("some_total_usec", "0"), ("full_total_usec", "0")]
      memory := some [("current_bytes", "0"), ("peak_bytes", "0")] }]
  ne_nil := List.cons_ne_nil _ _

/-- Every call returns, but `kubectl delete` fails. -/
def stuckPod : Execution where
  podName workload policy runId := workload ++ "-" ++ policy ++ "-" ++ runId
  mkdir := none
  raises _ := none
  podUid := "u"
  before := oneLevel
  after := oneLevel
  deltas := .ok [⟨some "pod", some "p", some (cpuStatKeys.map fun key => (key, 0))⟩]
  scrape := ⟨none, false, none, [⟨"t", "collector", "m", "0", "count", ""⟩]⟩
  scrapeAgain := ⟨none, false, none, []⟩
  traceCode := 0
  traceError := ""
  loadMetrics := []
  appendCgroups := .done
  appendMetrics := .done
  polled := false
  stopTrace := none
  delete _ := .error (.other ⟨.calledProcessError, "timed out"⟩)
  writeStatus := none
  appendBlocks := .done
  startedAt := "t"
  timestamp := "t"
  finishedAt := "t"

/-- The first cell of a smoke run. -/
def smokeArgs : Args := ⟨"smoke", "solo-cpu-bound-fit", "r", 1, 1, 1, "w", false⟩

/-- The rows of a cell that is recorded as failed stay in both files. -/
theorem not_kept_stuckPod : ¬ ∀ x args, Kept (runCell x args begin).2 := by
  intro h
  have hcgroups : (runCell stuckPod smokeArgs begin).2.cgroups.length = 26 := by decide +kernel
  have hblocks : (runCell stuckPod smokeArgs begin).2.blocks.map BlockRow.status = ["failed"] := by
    decide +kernel
  have hne : (runCell stuckPod smokeArgs begin).2.cgroups ≠ [] := by
    intro hnil
    rw [hnil] at hcgroups
    cases hcgroups
  obtain ⟨row, hrow, hstatus⟩ := (h stuckPod smokeArgs).cgroups.1 hne
  have hmem := List.mem_map_of_mem (f := BlockRow.status) hrow
  rw [hblocks, hstatus] at hmem
  exact absurd hmem (by decide)

end CpuLimits.RunCell

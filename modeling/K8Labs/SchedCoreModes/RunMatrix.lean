import K8Labs.Python.Effect
import K8Labs.Python.Value
import K8Labs.SchedCoreModes.Scenarios

/-!
# The matrix of modes and scenarios

`run_matrix.py` sets the mode of the scheduler, measures the scenarios in it and sets the mode back.
A run is a `Py.Effect.Run` of a `Node`: at every point an exception may be raised, also by a signal.
The calls that make groups, start workloads and read counters do not write the mode; each is a point,
and what it reads comes from the `Worker`.

* `main_labelled_restored` : whatever is raised in the measurement loop, a row of a mode was measured
  while the node was in that mode from the first point of the measurement to the last, and the node
  ends in the mode it began in.
-/

namespace SchedCoreModes

open Py Py.Effect

/-! ### The node -/

/-- The mode file of the kernel: what is read from it in a mode. -/
structure ModeFile where
  text : String → String
  shows : ∀ mode ∈ modes, parseModeFile (text mode) = .ok mode

/-- `random.Random(seed).shuffle`. -/
structure Shuffle where
  shuffle : ℤ → List String → List String
  perm : ∀ seed xs, (shuffle seed xs).Perm xs

/-- What a workload has written; nothing when its file is missing or is not JSON. -/
inductive Output where
  | nothing
  | cpuBurn (threads : ℤ) (iterations accumulator : ℕ)
  | wakeupLatency (samples p50 p99 p999 max : ℕ)

/-- The counters of a `cpu.stat` file. -/
abbrev Stat := List (String × ℤ)

/-- A row, with the points between which it was measured. -/
structure Row where
  runId : String
  node : String
  kernel : String
  cpus : ℤ
  mode : String
  modeOrder : String
  scenario : String
  rep : ℕ
  group : String
  kind : String
  parent : String
  weight : ℕ
  threads : ℤ
  cpuMax : String
  cpuWeightRead : String
  delta : Stat
  ctxt : ℤ
  elapsed : Py.Float
  timestamp : String
  output : Output
  start : ℕ
  stop : ℕ

/-- The mode of the kernel, and the variables of the program that outlive an exception. -/
structure Node where
  /-- `cgroup_mode`. -/
  mode : String
  /-- `all_rows`. -/
  rows : List Row
  /-- `created` of the scenario that is measured. -/
  created : List Spec
  /-- `procs` of the scenario that is measured. -/
  procs : List Spec

/-- The arguments of the program. -/
structure Args where
  reps : ℤ
  duration : Py.Float
  warmup : Py.Float
  cooldown : Py.Float
  seed : ℤ
  scenarios : String
  modes : String
  runId : String
  plan : Bool
  check : Bool

/-- What the program finds on the worker, and the exceptions that are raised at the points. -/
structure Worker where
  modeFile : ModeFile
  shuffle : Shuffle
  /-- The text of a file that is read at a point. -/
  text : ℕ → String → Except Exc String
  /-- The return code of the workload of a group. -/
  returnCode : ℕ → String → ℤ
  output : ℕ → String → Output
  timestamp : ℕ → String
  isRoot : Bool
  hasModeFile : Bool
  /-- A workload binary is missing or older than its source. -/
  isStale : Bool
  hasTool : String → Bool
  cpus : ℤ
  kernel : String
  node : String
  /-- Raised before the measurement loop. -/
  before : ℕ → Option Exc
  /-- Raised in the measurement loop. -/
  loop : ℕ → Option Exc
  /-- Raised in the final `finally` block. -/
  final : ℕ → Option Exc
  /-- Raised when the rows are written. -/
  after : ℕ → Option Exc

/-- A part of the run. -/
abbrev Step (α : Type) := Effect (Run Node) Exc α

/-- `raise RuntimeError(message)`. -/
def runtimeError {α : Type} (message : String) : Step α := throw ⟨.runtimeError, message⟩

/-- `raise SystemExit(message)`. -/
def systemExit {α : Type} (message : String) : Except Exc α := .error ⟨.systemExit, message⟩

variable (worker : Worker) (broken : ℕ → Option Exc)

/-- `read_text`, of a file that is not the mode file. -/
def readText (path : String) : Step String := do
  point broken
  let n ← passed
  lift (worker.text n path)

/-! ### The mode -/

/-- `read_mode`. -/
def readMode : Step String := do
  point broken
  let run ← get
  lift (parseModeFile (worker.modeFile.text run.now.mode))

/-- The mode that was read back is the one that was written. -/
def checkMode (mode actual : String) : Step Unit :=
  if actual ≠ mode then
    runtimeError ("mode write requested " ++ quoted mode ++ ", read back " ++ quoted actual)
  else pure ()

/-- `set_mode`: the mode is written, and after a while it is read back. -/
def setMode (mode : String) : Step Unit :=
  if mode ∉ modes then runtimeError ("refusing to write unknown cgroup mode " ++ quoted mode)
  else do
    act broken fun node => { node with mode := mode }
    point broken
    let actual ← readMode worker broken
    checkMode mode actual

/-! ### One scenario -/

/-- The line of a `cpu.stat` file with a counter. -/
def statLine (line : String) : List (String × ℤ) :=
  match splitWords line with
  | [name, value] =>
    match parseInt value with
    | .ok n => [(name, n)]
    | .error _ => []
  | _ => []

/-- `read_cpu_stat`, of a text; of a counter that is there twice the last value counts. -/
def parseCpuStat (text : String) : Except Exc Stat :=
  let values := ((splitLines text).flatMap statLine).reverse
  if (values.lookup "usage_usec").isSome then .ok values
  else .error ⟨.runtimeError, "no usage_usec"⟩

/-- `stat_delta`. -/
def statDelta (before after : Stat) : Stat :=
  ["usage_usec", "user_usec", "system_usec", "nr_periods", "nr_throttled", "throttled_usec"].map
    fun key => (key, max 0 ((after.lookup key).getD 0 - (before.lookup key).getD 0))

/-- `read_ctxt`, of a text. -/
def parseCtxt (text : String) : Except Exc ℤ :=
  match (splitLines text).find? fun line => startsWith line "ctxt " with
  | some line =>
    match (splitWords line)[1]? with
    | some value => parseInt value
    | none => .error ⟨.indexError, "list index out of range"⟩
  | none => .error ⟨.runtimeError, "no ctxt line in /proc/stat"⟩

/-- `add_group` with `make_group`. -/
def addGroup (spec : Spec) : Step Unit := do
  modify fun run => { run with now.created := run.now.created ++ [spec] }
  point broken
  point broken
  onlyIf (spec.cpuMax ≠ "") (point broken)
  onlyIf spec.subtree (point broken)

/-- `start`. -/
def start (spec : Spec) : Step Unit := do
  point broken
  point broken
  modify fun run => { run with now.procs := run.now.procs ++ [spec] }

/-- The workload of a group is started, if it has one. -/
def startWorkload (scenario : String) (spec : Spec) : Step Unit :=
  if spec.workload = "none" then pure ()
  else if spec.workload = "latency" ∨ spec.workload = "cpu" then start broken spec
  else runtimeError ("unknown workload " ++ quoted spec.workload ++ " in " ++ scenario)

/-- `stop`: the process ends; what it returned counts when the stop is strict. -/
def stop (strict : Bool) (spec : Spec) : Step Unit := do
  point broken
  let n ← passed
  onlyIf (strict && !decide (worker.returnCode n spec.name ∈ [0, -15]))
    (runtimeError ("workload exited " ++ toString (worker.returnCode n spec.name)))

/-- `read_cpu_stat` of a group. -/
def readCpuStat (spec : Spec) : Step (String × Stat) := do
  let text ← readText worker broken (spec.name ++ "/cpu.stat")
  let values ← lift (parseCpuStat text)
  pure (spec.name, values)

/-- `read_ctxt`. -/
def readCtxt : Step ℤ := do
  let text ← readText worker broken "/proc/stat"
  lift (parseCtxt text)

/-- A file of a group, nothing when it cannot be read. -/
def readGroupFile (spec : Spec) (name : String) : Step (Option (String × String)) :=
  tryCatch (do
    let text ← readText worker broken (spec.name ++ "/" ++ name)
    pure (some (name, strip text)))
    fun e => if e.caughtBy [.osError] then pure none else throw e

/-- `read_group`. -/
def readGroup (spec : Spec) : Step (List (String × String)) := do
  let files ← collect (readGroupFile worker broken spec) ["cpu.weight", "cpu.max", "cpuset.cpus"]
  pure (files.filterMap id)

/-- What does not change from row to row. -/
structure Job where
  runId : String
  node : String
  kernel : String
  cpus : ℤ
  duration : Py.Float
  scenarios : List String
  modes : List String
  seed : ℤ

/-- What is read around the measurement window of a scenario. -/
structure Window where
  start : ℕ
  before : List (String × Stat)
  after : List (String × Stat)
  ctxt : ℤ
  timestamp : String

/-- `threads` of a row; the workload overwrites it with its own. -/
def Output.threads (output : Output) (spec : Spec) : ℤ :=
  match output with
  | .cpuBurn threads _ _ => threads
  | _ => spec.threads

/-- The row of a group. -/
def makeRow (job : Job) (scenario mode : String) (rep : ℕ) (order : List String) (window : Window)
    (spec : Spec) : Step Row := do
  let files ← readGroup worker broken spec
  let filesAgain ← readGroup worker broken spec
  point broken
  let n ← passed
  pure
    { runId := job.runId
      node := job.node
      kernel := job.kernel
      cpus := job.cpus
      mode := mode
      modeOrder := ",".intercalate order
      scenario := scenario
      rep := rep
      group := spec.name
      kind := spec.kind
      parent := spec.parent
      weight := spec.weight
      threads := (worker.output n spec.name).threads spec
      cpuMax := (files.lookup "cpu.max").getD ""
      cpuWeightRead := (filesAgain.lookup "cpu.weight").getD ""
      delta := statDelta ((window.before.lookup spec.name).getD [])
        ((window.after.lookup spec.name).getD [])
      ctxt := window.ctxt
      elapsed := job.duration
      timestamp := window.timestamp
      output := worker.output n spec.name
      start := window.start
      stop := n }

/-- The `try` block of `run_scenario`. -/
def measure (job : Job) (scenario mode : String) (rep : ℕ) (order : List String) (begun : ℕ) :
    Step (List Row) := do
  let specs ← lift (groupSpecs scenario)
  forEach (addGroup broken) specs
  forEach (startWorkload broken scenario) specs
  -- the workloads wait for a file; then they warm up
  point broken
  point broken
  point broken
  let before ← collect (readCpuStat worker broken) specs
  let ctxtBefore ← readCtxt worker broken
  onlyIf (scenario = "latency") (point broken)
  point broken
  let after ← collect (readCpuStat worker broken) specs
  let ctxtAfter ← readCtxt worker broken
  -- the workloads end outside the window
  point broken
  let run ← get
  forEach (stop worker broken true) run.now.procs
  let n ← passed
  collect (makeRow worker broken job scenario mode rep order
    ⟨begun, before, after, ctxtAfter - ctxtBefore, worker.timestamp n⟩) specs

/-- A group is removed; what the file system says against it is logged. -/
def cleanCgroup (_ : Spec) : Step Unit :=
  tryCatch (point broken) fun e => if e.caughtBy [.osError] then point broken else throw e

/-- The `finally` block of `run_scenario`. -/
def cleanUp : Step Unit := do
  let run ← get
  forEach (stop worker broken false) run.now.procs
  -- the deepest groups first
  forEach (cleanCgroup broken) (run.now.created.filter (·.parent ≠ "") ++
    run.now.created.filter (·.parent = ""))
  point broken

/-- `run_scenario`. -/
def runScenario (job : Job) (scenario mode : String) (rep : ℕ) (order : List String) :
    Step (List Row) := do
  let begun ← passed
  -- the directory of an earlier run is removed, and a new one is made
  point broken
  point broken
  modify fun run => { run with now.created := [], now.procs := [] }
  tryFinally (measure worker broken job scenario mode rep order begun) (cleanUp worker broken)

/-! ### The run -/

/-- A scenario is measured and its rows are kept; between two scenarios there is a pause. -/
def runAndKeep (job : Job) (mode : String) (rep : ℕ) (order : List String)
    (scenario : String × ℕ) : Step Unit := do
  point broken
  let rows ← runScenario worker broken job scenario.1 mode rep order
  modify fun run => { run with now.rows := run.now.rows ++ rows }
  onlyIf (scenario.2 + 1 < job.scenarios.length) (point broken)

/-- The scenarios are measured in one mode. -/
def runMode (job : Job) (rep : ℕ) (order : List String) (mode : String) : Step Unit := do
  setMode worker broken mode
  let _ ← readMode worker broken
  point broken
  forEach (runAndKeep worker broken job mode rep order) job.scenarios.zipIdx

/-- One repetition: the modes in a shuffled order, and the mode is set back. -/
def repetition (job : Job) (original : String) (rep : ℕ) : Step Unit := do
  let order := worker.shuffle.shuffle (job.seed + rep) job.modes
  point broken
  forEach (runMode worker broken job rep order) order
  setMode worker broken original

/-- The final `finally` block: the mode is set back, and the groups are removed.  An exception of
the first is logged, but a signal is not. -/
def restore (original : String) : Step Unit := do
  tryCatch (setMode worker broken original)
    fun e => if e.cls ≠ .systemExit then point broken else throw e
  tryCatch (point broken) fun e => if e.caughtBy [.osError] then point broken else throw e

/-- The measurement loop. -/
def measureAll (job : Job) (original : String) (reps : ℤ) : Step Unit :=
  tryFinally (forEach (repetition worker worker.loop job original) (List.range' 1 reps.toNat))
    (restore worker worker.final original)

/-- The names in a list that is separated by commas. -/
def names (text : String) : List String :=
  ((text.toList.splitOn ',').map String.ofList).filter (· ≠ "")

/-- The arguments are checked. -/
def checkArgs (args : Args) : Except Exc (List String × List String) :=
  if args.reps < 1 then systemExit "--reps must be >= 1"
  else if args.duration.le (.fin 0) then systemExit "--duration must be > 0"
  else if args.warmup.lt (.fin 0) then systemExit "--warmup must be >= 0"
  else if args.cooldown.lt (.fin 0) then systemExit "--cooldown must be >= 0"
  else if names args.scenarios = [] then systemExit "at least one scenario is required"
  else if names args.modes = [] then systemExit "at least one mode is required"
  else
    match (names args.scenarios).find? fun name => (scenarios.lookup name).isNone with
    | some name => systemExit ("unknown scenario: " ++ name)
    | none =>
      match (names args.modes).find? fun mode => mode ∉ modes with
      | some mode => systemExit ("unknown mode: " ++ mode)
      | none => .ok (names args.scenarios, names args.modes)

/-- `ensure_root`: the controllers are there and are enabled. -/
def ensureRoot : Step Unit := do
  let controllers ← readText worker broken "cgroup.controllers"
  forEach (fun controller => onlyIf (controller ∉ splitWords controllers)
    (runtimeError ("cgroup v2 controller " ++ quoted controller ++ " is not available")))
    ["cpu", "cpuset"]
  let subtree ← readText worker broken "cgroup.subtree_control"
  let missing := ["cpu", "cpuset"].filter (· ∉ splitWords subtree)
  onlyIf (missing ≠ []) (runtimeError ("root cgroup.subtree_control is missing " ++
    ", ".intercalate missing ++ "; enable it on the worker before running the matrix"))

/-- `check_environment`: the mode in force. -/
def checkEnvironment : Step String := do
  ensureRoot worker broken
  onlyIf (!worker.hasModeFile) (runtimeError "cgroup_mode is not available")
  forEach (fun tool => onlyIf (!worker.hasTool tool)
    (runtimeError ("required tool not found: " ++ tool)))
    (if worker.isStale then ["python3", "gcc"] else ["python3"])
  readMode worker broken

/-- What comes before the loop when the matrix is run. -/
def prepare (broken : ℕ → Option Exc) : Step Unit := do
  -- the workloads are compiled
  point broken
  point broken
  -- `ensure_parent`
  point broken
  point broken
  point broken
  point broken

/-- The rows and what is known of the run are written. -/
def write (broken : ℕ → Option Exc) : Step Unit := do
  point broken
  point broken
  point broken

/-- The matrix is run, unless the environment is only checked. -/
def runMatrix (args : Args) (scenarios modes : List String) (original : String) : Step Unit :=
  if args.check then point worker.before
  else do
    prepare worker.before
    measureAll worker ⟨args.runId, worker.node, worker.kernel, worker.cpus, args.duration, scenarios,
      modes, args.seed⟩ original args.reps
    write worker.after

/-- What follows the check of the arguments. -/
def runChecked (args : Args) (scenarios modes : List String) : Step Unit :=
  if args.plan then point worker.before
  else do
    onlyIf (!worker.isRoot) (lift (systemExit "run_matrix.py must run as root on the worker"))
    point worker.before
    let original ← checkEnvironment worker worker.before
    runMatrix worker args scenarios modes original

/-- `main`. -/
def main (args : Args) : Step Unit := do
  let (scenarios, modes) ← lift (checkArgs args)
  runChecked worker args scenarios modes

/-- The program begins on a node in a mode. -/
def begin (mode : String) : Run Node := ⟨⟨mode, [], [], []⟩, []⟩

/-! ### What a step leaves alone -/

/-- The node has been in one mode all the time, and no row was kept. -/
structure Steady (s s' : Run Node) : Prop where
  mode : s'.now.mode = s.now.mode
  rows : s'.now.rows = s.now.rows
  seen : ∃ t, s'.seen = s.seen ++ t ∧ ∀ node ∈ t, node.mode = s.now.mode

instance : IsPreorder (Run Node) Steady where
  refl _ := ⟨rfl, rfl, [], (List.append_nil _).symm, by simp⟩
  trans a b c hab hbc := by
    obtain ⟨t, ht, hmodes⟩ := hab.seen
    obtain ⟨u, hu, hmodes'⟩ := hbc.seen
    refine ⟨hbc.mode.trans hab.mode, hbc.rows.trans hab.rows, t ++ u, ?_, fun node hnode => ?_⟩
    · rw [hu, ht, List.append_assoc]
    · rcases List.mem_append.1 hnode with h | h
      · exact hmodes node h
      · exact (hmodes' node h).trans hab.mode

/-- No row was kept, and what was seen is still known. -/
structure Extends (s s' : Run Node) : Prop where
  rows : s'.now.rows = s.now.rows
  seen : s.seen <+: s'.seen

instance : IsPreorder (Run Node) Extends where
  refl s := ⟨rfl, List.prefix_refl s.seen⟩
  trans _ _ _ hab hbc := ⟨hbc.rows.trans hab.rows, hab.seen.trans hbc.seen⟩

theorem Steady.extends {s s' : Run Node} (h : Steady s s') : Extends s s' := by
  obtain ⟨t, ht, -⟩ := h.seen
  exact ⟨h.rows, t, ht.symm⟩

theorem Steady.length_le {s s' : Run Node} (h : Steady s s') : s.seen.length ≤ s'.seen.length :=
  h.extends.seen.length_le

section Steady

variable {worker broken} {α : Type}

theorem steady_point : Moves Steady (point broken : Step Unit) :=
  fun s => ⟨rfl, rfl, [s.now], rfl, by simp⟩

theorem steady_passed : Moves Steady (passed : Step ℕ) := fun s => refl_of Steady s

theorem steady_readText (path : String) : Moves Steady (readText worker broken path) :=
  steady_point.bind fun _ => steady_passed.bind fun _ => moves_lift _

theorem steady_readMode : Moves Steady (readMode worker broken) :=
  steady_point.bind fun _ => moves_get.bind fun _ => moves_lift _

theorem steady_checkMode (mode actual : String) : Moves Steady (checkMode mode actual) := by
  unfold checkMode
  split_ifs
  · exact moves_throw _
  · exact moves_pure ()

theorem steady_addGroup (spec : Spec) : Moves Steady (addGroup broken spec) := by
  refine Moves.bind (fun s => ⟨rfl, rfl, [], (List.append_nil _).symm, by simp⟩) fun _ => ?_
  exact steady_point.bind fun _ => steady_point.bind fun _ =>
    (moves_onlyIf steady_point).bind fun _ => moves_onlyIf steady_point

theorem steady_startWorkload (scenario : String) (spec : Spec) :
    Moves Steady (startWorkload broken scenario spec) := by
  unfold startWorkload
  split_ifs
  · exact moves_pure ()
  · exact steady_point.bind fun _ => steady_point.bind fun _ =>
      fun s => ⟨rfl, rfl, [], (List.append_nil _).symm, by simp⟩
  · exact moves_throw _

theorem steady_stop (strict : Bool) (spec : Spec) : Moves Steady (stop worker broken strict spec) :=
  steady_point.bind fun _ => steady_passed.bind fun _ => moves_onlyIf (moves_throw _)

theorem steady_readCpuStat (spec : Spec) : Moves Steady (readCpuStat worker broken spec) :=
  (steady_readText _).bind fun _ => (moves_lift _).bind fun _ => moves_pure _

theorem steady_readCtxt : Moves Steady (readCtxt worker broken) :=
  (steady_readText _).bind fun _ => moves_lift _

theorem steady_readGroup (spec : Spec) : Moves Steady (readGroup worker broken spec) := by
  refine (moves_collect fun name _ => ?_).bind fun _ => moves_pure _
  refine Moves.tryCatch ((steady_readText _).bind fun _ => moves_pure _) fun e => ?_
  split_ifs
  · exact moves_pure _
  · exact moves_throw e

theorem steady_cleanCgroup (spec : Spec) : Moves Steady (cleanCgroup broken spec) := by
  refine Moves.tryCatch steady_point fun e => ?_
  split_ifs
  · exact steady_point
  · exact moves_throw e

theorem steady_cleanUp : Moves Steady (cleanUp worker broken) :=
  moves_get.bind fun _ => (moves_forEach fun spec _ => steady_stop false spec).bind fun _ =>
    (moves_forEach fun spec _ => steady_cleanCgroup spec).bind fun _ => steady_point

end Steady

/-! ### The mode is set -/

section SetMode

variable {worker broken} {mode : String}

theorem extends_setMode (mode : String) : Moves Extends (setMode worker broken mode) := by
  have hpoint : Moves Extends (point broken : Step Unit) :=
    steady_point.imp fun _ _ => Steady.extends
  have hread : Moves Extends (readMode worker broken) :=
    steady_readMode.imp fun _ _ => Steady.extends
  have hwrite : Moves Extends (act broken fun node : Node => { node with mode := mode }) :=
    hpoint.bind fun _ => Moves.bind (fun s => ⟨rfl, List.prefix_refl s.seen⟩) fun _ => hpoint
  unfold setMode
  split_ifs
  · refine hwrite.bind fun _ => hpoint.bind fun _ => hread.bind fun actual => ?_
    exact (steady_checkMode mode actual).imp fun _ _ => Steady.extends
  · exact moves_throw _

/-- The node is in a mode. -/
def InMode (mode : String) (s : Run Node) : Prop := s.now.mode = mode

theorem inMode_of_steady {α : Type} {x : Step α} (h : Moves Steady x) :
    Ends (InMode mode) x (fun _ => InMode mode) (InMode mode) :=
  h.preserves fun _ _ hmove hs => hmove.mode.trans hs

/-- The mode is written, when nothing is raised before. -/
theorem ends_write {raised : Run Node → Prop}
    (hfirst : Ends (fun _ => True) (point broken : Step Unit) (fun _ _ => True) raised)
    (hlast : Ends (InMode mode) (point broken : Step Unit) (fun _ => InMode mode) raised) :
    Ends (fun _ => True) (act broken fun node : Node => { node with mode := mode })
      (fun _ => InMode mode) raised := by
  refine hfirst.bind fun _ => Ends.bind ?_ fun _ => hlast
  exact ends_modify fun s _ => rfl

theorem ends_setMode {raised : Run Node → Prop} (hmode : mode ∈ modes)
    (hfirst : Ends (fun _ => True) (point broken : Step Unit) (fun _ _ => True) raised)
    (hraised : ∀ s, InMode mode s → raised s) :
    Ends (fun _ => True) (setMode worker broken mode) (fun _ => InMode mode) raised := by
  have hkeep : ∀ {α : Type} {x : Step α}, Moves Steady x →
      Ends (InMode mode) x (fun _ => InMode mode) raised :=
    fun h => (inMode_of_steady h).imp (fun _ _ hs => hs) hraised
  rw [setMode, if_neg (not_not.2 hmode)]
  refine (ends_write hfirst (hkeep steady_point)).bind fun _ => (hkeep steady_point).bind fun _ => ?_
  exact (hkeep steady_readMode).bind fun actual => hkeep (steady_checkMode mode actual)

/-- A mode that was set without an exception is the mode of the node. -/
theorem inMode_of_setMode {s s' : Run Node} (h : setMode worker broken mode s = (.ok (), s')) :
    s'.now.mode = mode := by
  by_cases hmode : mode ∈ modes
  · have hends : Ends (fun _ => True) (setMode worker broken mode) (fun _ => InMode mode)
        fun _ => True := ends_setMode hmode ends_true fun _ _ => trivial
    exact hends.of_ok trivial h
  · rw [setMode, if_pos hmode] at h
    cases h

/-- A mode that is set is the mode of the node, when no exception is raised. -/
theorem ends_setMode_quiet (hmode : mode ∈ modes) (hquiet : ∀ n, broken n = none) :
    Ends (fun _ => True) (setMode worker broken mode) (fun _ => InMode mode) (InMode mode) := by
  refine ends_setMode hmode (fun s _ => ?_) fun _ hs => hs
  rw [point_of_none (hquiet _)]
  trivial

end SetMode

/-! ### Rows that are labelled with their mode -/

section Rows

variable {worker broken} {s : Run Node} {mode : String}

/-- The node was in the mode of a row from the first point of its measurement to the last. -/
def Labelled (s : Run Node) (row : Row) : Prop :=
  row.start < row.stop ∧
    ∀ i, row.start ≤ i → i < row.stop → ∃ node, s.seen[i]? = some node ∧ node.mode = row.mode

/-- All rows that were kept are labelled with their mode. -/
def Sound (s : Run Node) : Prop := ∀ row ∈ s.now.rows, Labelled s row

theorem Labelled.extends {s s' : Run Node} {row : Row} (h : Labelled s row)
    (hmove : s.seen <+: s'.seen) : Labelled s' row := by
  obtain ⟨t, ht⟩ := hmove
  refine ⟨h.1, fun i hstart hstop => ?_⟩
  obtain ⟨node, hnode, hmode⟩ := h.2 i hstart hstop
  exact ⟨node, ht ▸ List.getElem?_append_left (List.getElem?_eq_some_iff.1 hnode).1 ▸ hnode, hmode⟩

theorem Sound.extends {s s' : Run Node} (h : Sound s) (hmove : Extends s s') : Sound s' := by
  intro row hrow
  rw [hmove.rows] at hrow
  exact (h row hrow).extends hmove.seen

/-- What is between the state at the begin of a measurement and a later one. -/
def Measuring (s₀ s : Run Node) : Prop := Steady s₀ s ∧ s₀.seen.length < s.seen.length

/-- A row of the measurement that began in a state. -/
structure RowOf (s₀ : Run Node) (mode : String) (row : Row) (s : Run Node) : Prop where
  mode : row.mode = mode
  start : row.start = s₀.seen.length
  stop : s₀.seen.length < row.stop
  seen : row.stop ≤ s.seen.length

/-- While the node is in the mode, its rows are labelled with it. -/
theorem RowOf.labelled {s₀ : Run Node} {row : Row} (h : RowOf s₀ mode row s) (hsteady : Steady s₀ s)
    (hmode : s₀.now.mode = mode) : Labelled s row := by
  refine ⟨h.start ▸ h.stop, fun i hstart hstop => ?_⟩
  obtain ⟨t, ht, hmodes⟩ := hsteady.seen
  have hi : i < s.seen.length := hstop.trans_le h.seen
  refine ⟨s.seen[i], List.getElem?_eq_getElem hi, ?_⟩
  have hmem : s.seen[i] ∈ t := by
    have hlen : s₀.seen.length ≤ i := h.start ▸ hstart
    simp only [ht, List.getElem_append_right hlen]
    exact List.getElem_mem _
  rw [hmodes _ hmem, hmode, h.mode]

theorem Measuring.steady {s₀ s' : Run Node} (h : Measuring s₀ s) (hmove : Steady s s') :
    Measuring s₀ s' :=
  ⟨trans_of Steady h.1 hmove, h.2.trans_le hmove.length_le⟩

theorem RowOf.steady {s₀ s' : Run Node} {row : Row} (h : RowOf s₀ mode row s)
    (hmove : Steady s s') : RowOf s₀ mode row s' :=
  { h with seen := h.seen.trans hmove.length_le }

theorem measuring_of_steady {s₀ : Run Node} {α : Type} {x : Step α} (h : Moves Steady x) :
    Ends (Measuring s₀) x (fun _ => Measuring s₀) (Measuring s₀) :=
  h.preserves fun _ _ hmove hs => hs.steady hmove

theorem steady_makeRow (job : Job) (scenario mode : String) (rep : ℕ) (order : List String)
    (window : Window) (spec : Spec) :
    Moves Steady (makeRow worker broken job scenario mode rep order window spec) :=
  (steady_readGroup spec).bind fun _ => (steady_readGroup spec).bind fun _ =>
    steady_point.bind fun _ => steady_passed.bind fun _ => moves_pure _

theorem ends_makeRow {s₀ : Run Node} (job : Job) (scenario : String) (rep : ℕ) (order : List String)
    (window : Window) (hwindow : window.start = s₀.seen.length) (spec : Spec) :
    Ends (Measuring s₀) (makeRow worker broken job scenario mode rep order window spec)
      (fun row s => Measuring s₀ s ∧ RowOf s₀ mode row s) (Measuring s₀) := by
  refine (measuring_of_steady (steady_readGroup spec)).bind fun _ => ?_
  refine (measuring_of_steady (steady_readGroup spec)).bind fun _ => ?_
  refine (measuring_of_steady steady_point).bind fun _ s hs => ?_
  exact ⟨hs, rfl, hwindow, hs.2, le_rfl⟩

theorem ends_measure {s₀ : Run Node} (job : Job) (scenario : String) (rep : ℕ)
    (order : List String) :
    Ends (Measuring s₀) (measure worker broken job scenario mode rep order s₀.seen.length)
      (fun rows s => Measuring s₀ s ∧ ∀ row ∈ rows, RowOf s₀ mode row s) (Measuring s₀) := by
  have hkeep : ∀ {α : Type} {x : Step α}, Moves Steady x →
      Ends (Measuring s₀) x (fun _ => Measuring s₀) (Measuring s₀) := measuring_of_steady
  refine (hkeep (moves_lift _)).bind fun specs => ?_
  refine (hkeep (moves_forEach fun spec _ => steady_addGroup spec)).bind fun _ => ?_
  refine (hkeep (moves_forEach fun spec _ => steady_startWorkload scenario spec)).bind fun _ => ?_
  refine (hkeep steady_point).bind fun _ => (hkeep steady_point).bind fun _ => ?_
  refine (hkeep steady_point).bind fun _ => ?_
  refine (hkeep (moves_collect fun spec _ => steady_readCpuStat spec)).bind fun before => ?_
  refine (hkeep steady_readCtxt).bind fun ctxtBefore => ?_
  refine (hkeep (moves_onlyIf steady_point)).bind fun _ => (hkeep steady_point).bind fun _ => ?_
  refine (hkeep (moves_collect fun spec _ => steady_readCpuStat spec)).bind fun after => ?_
  refine (hkeep steady_readCtxt).bind fun ctxtAfter => (hkeep steady_point).bind fun _ => ?_
  refine (hkeep moves_get).bind fun run => ?_
  refine (hkeep (moves_forEach fun spec _ => steady_stop true spec)).bind fun _ => ?_
  refine (hkeep steady_passed).bind fun n => ?_
  refine ends_collect (fun spec _ => ends_makeRow job scenario rep order _ rfl spec)
    fun spec _ row => ?_
  have hkept : Preserves (fun s => Measuring s₀ s ∧ RowOf s₀ mode row s)
      (makeRow worker broken job scenario mode rep order
        ⟨s₀.seen.length, before, after, ctxtAfter - ctxtBefore, worker.timestamp n⟩ spec) :=
    (steady_makeRow job scenario mode rep order _ spec).preserves fun _ _ hmove hs =>
      ⟨hs.1.steady hmove, hs.2.steady hmove⟩
  exact hkept.imp (fun _ _ hs => hs) fun _ hs => hs.1

/-- A scenario leaves the mode alone, and its rows were measured within it. -/
theorem ends_runScenario (s₀ : Run Node) (job : Job) (scenario : String) (rep : ℕ)
    (order : List String) :
    Ends (fun s => s = s₀) (runScenario worker broken job scenario mode rep order)
      (fun rows s => Steady s₀ s ∧ ∀ row ∈ rows, RowOf s₀ mode row s) (Steady s₀) := by
  have hsteady : ∀ s, Measuring s₀ s → Steady s₀ s := fun s hs => hs.1
  have hfirst : Ends (fun s => s = s₀) (point broken : Step Unit) (fun _ => Measuring s₀)
      (Steady s₀) := by
    have hpassed : Measuring s₀ { s₀ with seen := s₀.seen ++ [s₀.now] } :=
      ⟨⟨rfl, rfl, [s₀.now], rfl, by simp⟩, by simp⟩
    exact ends_point (fun s hs => hs ▸ hpassed) fun s hs => hs ▸ hpassed.1
  have hreset : Moves Steady (Effect.modify (fun run : Run Node =>
      { run with now.created := [], now.procs := [] }) : Step Unit) :=
    fun s => ⟨rfl, rfl, [], (List.append_nil _).symm, by simp⟩
  intro s hs
  subst hs
  refine (hfirst.bind fun _ => ?_ : Ends _ (_ >>= _) _ _) s rfl
  refine ((measuring_of_steady steady_point).imp (fun _ _ hs => hs) hsteady).bind fun _ => ?_
  refine ((measuring_of_steady hreset).imp (fun _ _ hs => hs) hsteady).bind fun _ => ?_
  refine Ends.tryFinally (ends_measure job scenario rep order) (fun rows => ?_) ?_
  · have hkept : Preserves (fun s' => Measuring s s' ∧ ∀ row ∈ rows, RowOf s mode row s')
        (cleanUp worker broken) := steady_cleanUp.preserves fun _ _ hmove hs =>
      ⟨hs.1.steady hmove, fun row hrow => (hs.2 row hrow).steady hmove⟩
    exact hkept.imp (fun _ _ hs => ⟨hs.1.1, hs.2⟩) fun s' hs => hs.1.1
  · exact (measuring_of_steady steady_cleanUp).imp (fun _ s' hs => hs.1) hsteady

end Rows

/-! ### The whole run -/

section Main

variable {worker broken} {mode : String}

theorem sound_of_steady {α : Type} {x : Step α} (h : Moves Steady x) : Preserves Sound x :=
  h.preserves fun _ _ hmove hs => hs.extends hmove.extends

theorem sound_setMode (mode : String) : Preserves Sound (setMode worker broken mode) :=
  (extends_setMode mode).preserves fun _ _ hmove hs => hs.extends hmove

/-- What is known while the scenarios of a mode are measured. -/
def SoundIn (mode : String) (s : Run Node) : Prop := Sound s ∧ InMode mode s

theorem soundIn_of_steady {α : Type} {x : Step α} (h : Moves Steady x) :
    Ends (SoundIn mode) x (fun _ => SoundIn mode) Sound := by
  refine .of_all fun s r s' hs heq => ?_
  have hmove := h s
  rw [heq] at hmove
  have hsound := hs.1.extends hmove.extends
  cases r with
  | ok a => exact ⟨hsound, hmove.mode.trans hs.2⟩
  | error e => exact hsound

/-- The rows of a scenario are labelled with the mode it was measured in. -/
theorem soundIn_runAndKeep (job : Job) (rep : ℕ) (order : List String) (scenario : String × ℕ) :
    Ends (SoundIn mode) (runAndKeep worker broken job mode rep order scenario)
      (fun _ => SoundIn mode) Sound := by
  have hrun : Ends (SoundIn mode) (runScenario worker broken job scenario.1 mode rep order)
      (fun rows s => SoundIn mode s ∧ ∀ row ∈ rows, Labelled s row) Sound := by
    refine .of_all fun s r s' hs heq => ?_
    have hends : Ends (fun t => t = s) (runScenario worker broken job scenario.1 mode rep order)
        (fun rows s' => Steady s s' ∧ ∀ row ∈ rows, RowOf s mode row s') (Steady s) :=
      ends_runScenario s job scenario.1 rep order
    cases r with
    | error e => exact hs.1.extends (hends.of_error rfl heq).extends
    | ok rows =>
      obtain ⟨hmove, hrows⟩ := hends.of_ok rfl heq
      refine ⟨⟨hs.1.extends hmove.extends, hmove.mode.trans hs.2⟩, fun row hrow => ?_⟩
      exact (hrows row hrow).labelled hmove hs.2
  refine (soundIn_of_steady steady_point).bind fun _ => hrun.bind fun rows => ?_
  refine Ends.bind (ends_modify fun s hs => ?_) fun _ =>
    soundIn_of_steady (moves_onlyIf steady_point)
  refine ⟨fun row hrow => ?_, hs.1.2⟩
  rcases List.mem_append.1 hrow with hold | hnew
  · exact hs.1.1 row hold
  · exact hs.2 row hnew

theorem sound_runMode (job : Job) (rep : ℕ) (order : List String) (mode : String) :
    Preserves Sound (runMode worker broken job rep order mode) := by
  have hset : Ends Sound (setMode worker broken mode) (fun _ => SoundIn mode) Sound := by
    refine .of_all fun s r s' hs heq => ?_
    have hset : Preserves Sound (setMode worker broken mode) := sound_setMode mode
    cases r with
    | ok _ => exact ⟨hset.of_ok hs heq, inMode_of_setMode heq⟩
    | error e => exact hset.of_error hs heq
  refine hset.bind fun _ => (soundIn_of_steady steady_readMode).bind fun _ => ?_
  refine (soundIn_of_steady steady_point).bind fun _ => ?_
  have hloop : Ends (SoundIn mode)
      (forEach (runAndKeep worker broken job mode rep order) job.scenarios.zipIdx)
      (fun _ => SoundIn mode) Sound :=
    ends_forEach (fun _ => SoundIn mode) fun _ scenario _ _ =>
      soundIn_runAndKeep job rep order scenario
  exact hloop.imp (fun _ _ hs => hs.1) fun _ hs => hs

theorem sound_repetition (job : Job) (original : String) (rep : ℕ) :
    Preserves Sound (repetition worker broken job original rep) :=
  (sound_of_steady steady_point).bind fun _ =>
    (preserves_forEach fun mode _ => sound_runMode job rep _ mode).bind fun _ =>
      sound_setMode original

theorem sound_restore (original : String) : Preserves Sound (restore worker broken original) := by
  refine Ends.bind (Ends.tryCatch (sound_setMode original) fun e => ?_) fun _ =>
    Ends.tryCatch (sound_of_steady steady_point) fun e => ?_
  all_goals
    split_ifs
    · exact sound_of_steady steady_point
    · exact preserves_throw e

theorem steady_prepare : Moves Steady (prepare broken) :=
  steady_point.bind fun _ => steady_point.bind fun _ => steady_point.bind fun _ =>
    steady_point.bind fun _ => steady_point.bind fun _ => steady_point

theorem steady_write : Moves Steady (write broken) :=
  steady_point.bind fun _ => steady_point.bind fun _ => steady_point

theorem steady_ensureRoot : Moves Steady (ensureRoot worker broken) :=
  (steady_readText _).bind fun _ =>
    (moves_forEach fun _ _ => moves_onlyIf (moves_throw _)).bind fun _ =>
      (steady_readText _).bind fun _ => moves_onlyIf (moves_throw _)

theorem steady_checkEnvironment : Moves Steady (checkEnvironment worker broken) :=
  steady_ensureRoot.bind fun _ => (moves_onlyIf (moves_throw _)).bind fun _ =>
    (moves_forEach fun _ _ => moves_onlyIf (moves_throw _)).bind fun _ => steady_readMode

theorem sound_runMatrix (args : Args) (scenarios modes : List String) (original : String) :
    Preserves Sound (runMatrix worker args scenarios modes original) := by
  unfold runMatrix
  split_ifs
  · exact sound_of_steady steady_point
  · refine (sound_of_steady steady_prepare).bind fun _ => Preserves.bind ?_ fun _ =>
      sound_of_steady steady_write
    exact Ends.tryFinally (preserves_forEach fun rep _ => sound_repetition _ original rep)
      (fun _ => sound_restore original) (sound_restore original)

/-- The rows are labelled with their modes, whatever is raised. -/
theorem sound_main (args : Args) : Preserves Sound (main worker args) := by
  refine (preserves_lift _).bind fun matrix => ?_
  unfold runChecked
  split_ifs
  · exact sound_of_steady steady_point
  · exact (sound_of_steady (moves_onlyIf (moves_lift _))).bind fun _ =>
      (sound_of_steady steady_point).bind fun _ =>
        (sound_of_steady steady_checkEnvironment).bind fun original => sound_runMatrix args _ _ _

/-- The mode that is read is the mode of the node. -/
theorem ends_readMode (hmode : mode ∈ modes) :
    Ends (InMode mode) (readMode worker broken) (fun read s => read = mode ∧ InMode mode s)
      (InMode mode) := by
  refine (inMode_of_steady steady_point).bind fun _ => ends_bind_get fun t => ?_
  rintro s ⟨rfl, hs⟩
  rw [show s.now.mode = mode from hs, worker.modeFile.shows mode hmode]
  exact ⟨rfl, hs⟩

theorem ends_checkEnvironment (hmode : mode ∈ modes) :
    Ends (InMode mode) (checkEnvironment worker broken)
      (fun read s => read = mode ∧ InMode mode s) (InMode mode) := by
  refine (inMode_of_steady steady_ensureRoot).bind fun _ => ?_
  refine (inMode_of_steady (moves_onlyIf (moves_throw _))).bind fun _ => ?_
  refine (inMode_of_steady (moves_forEach fun _ _ => moves_onlyIf (moves_throw _))).bind fun _ => ?_
  exact ends_readMode hmode

/-- Whatever the loop leaves behind, the final block sets the mode back. -/
theorem ends_restore (hmode : mode ∈ modes) (hquiet : ∀ n, broken n = none) :
    Ends (fun _ => True) (restore worker broken mode) (fun _ => InMode mode) (InMode mode) := by
  refine Ends.bind (Ends.tryCatch (ends_setMode_quiet hmode hquiet) fun e => ?_) fun _ =>
    Ends.tryCatch (inMode_of_steady steady_point) fun e => ?_
  all_goals
    split_ifs
    · exact inMode_of_steady steady_point
    · exact preserves_throw e

theorem inMode_runMatrix (args : Args) (scenarios modes' : List String) (hmode : mode ∈ modes)
    (hquiet : ∀ n, worker.final n = none) :
    Ends (InMode mode) (runMatrix worker args scenarios modes' mode) (fun _ => InMode mode)
      (InMode mode) := by
  unfold runMatrix
  split_ifs
  · exact inMode_of_steady steady_point
  · refine (inMode_of_steady steady_prepare).bind fun _ => Ends.bind ?_ fun _ =>
      inMode_of_steady steady_write
    have hrestore : Ends (fun _ => True) (restore worker worker.final mode) (fun _ => InMode mode)
        (InMode mode) := ends_restore hmode hquiet
    exact (Ends.tryFinally ends_true (fun _ => hrestore) hrestore).weaken fun _ _ => trivial

theorem inMode_main (args : Args) (hmode : mode ∈ modes) (hquiet : ∀ n, worker.final n = none) :
    Preserves (InMode mode) (main worker args) := by
  refine (preserves_lift _).bind fun matrix => ?_
  unfold runChecked
  split_ifs
  · exact inMode_of_steady steady_point
  refine (inMode_of_steady (moves_onlyIf (moves_lift _))).bind fun _ => ?_
  refine (inMode_of_steady steady_point).bind fun _ => ?_
  refine (ends_checkEnvironment hmode).bind fun original => ?_
  rintro s ⟨rfl, hs⟩
  exact inMode_runMatrix args _ _ hmode hquiet s hs

end Main

/-- **Rows are labelled with the mode they were measured in, and the mode is set back.**  Whatever is
raised in the measurement loop, the node was in the mode of each row from the first point of its
measurement to the last, and it ends in the mode it began in. -/
theorem main_labelled_restored (args : Args) (mode : String) (hmode : mode ∈ modes)
    (hfinal : ∀ n, worker.final n = none) :
    (main worker args (begin mode)).2.now.mode = mode ∧
      ∀ row ∈ (main worker args (begin mode)).2.now.rows,
        Labelled (main worker args (begin mode)).2 row := by
  refine ⟨(inMode_main args hmode hfinal).after rfl, ?_⟩
  exact (sound_main args).after fun row hrow => absurd hrow List.not_mem_nil

/-! ### A run that is broken off -/

/-- The mode file of a kernel that knows the five modes. -/
def labModeFile : ModeFile where
  text mode := " ".intercalate (modes.map fun m => if m = mode then "(" ++ m ++ ")" else m) ++ "\n"
  shows := by decide +kernel

/-- The text of a file on the worker. -/
def labText (path : String) : String :=
  if path = "/proc/stat" then "ctxt 7\n"
  else if endsWith path "cpu.stat" then "usage_usec 5\n"
  else "cpuset cpu\n"

/-- A worker on which a signal arrives in the second mode. -/
def labWorker : Worker where
  modeFile := labModeFile
  shuffle := ⟨fun _ xs => xs, fun _ _ => .refl _⟩
  text _ path := .ok (labText path)
  returnCode _ _ := 0
  output _ _ := .nothing
  timestamp _ := ""
  isRoot := true
  hasModeFile := true
  isStale := false
  hasTool _ := true
  cpus := 2
  kernel := "6.12"
  node := "w"
  before _ := none
  loop n := if n = 90 then some ⟨.systemExit, "143"⟩ else none
  final _ := none
  after _ := none

/-- The quota scenario in two modes. -/
def labArgs : Args where
  reps := 2
  duration := .fin 8
  warmup := .fin 2
  cooldown := .fin 1
  seed := 1
  scenarios := "quota"
  modes := "tasks,up"
  runId := "r"
  plan := false
  check := false

/-- The rows of the first mode are kept, and the mode is set back. -/
theorem main_labelled_restored_labWorker :
    ((main labWorker labArgs (begin "smp")).2.now.rows.map fun row => (row.mode, row.group)) =
        [("tasks", "limited"), ("tasks", "open")] ∧
      (main labWorker labArgs (begin "smp")).2.now.mode = "smp" ∧
        ∀ row ∈ (main labWorker labArgs (begin "smp")).2.now.rows,
          Labelled (main labWorker labArgs (begin "smp")).2 row :=
  ⟨by decide +kernel, main_labelled_restored labWorker labArgs "smp" (by decide) fun _ => rfl⟩

end SchedCoreModes

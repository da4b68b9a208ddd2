import K8Labs.Python.DictReader
import Mathlib.Algebra.Order.Ring.Rat
import Mathlib.Data.List.Sort

/-!
# Loading a campaign

`load_campaign` of `research/cpu-limits/analysis/analyze.py`: three tables become the complete cells
of one phase, each with its cgroup and metric summary, and the list of the incomplete ones.

* `fileRow` is the body of the loop over the blocks; `fold_fileRow` says which tables it accepts,
  and what it makes of them.
* `loadCampaign_eq_ok` is the result: **a campaign is loaded exactly when the tables are admissible
  and no complete row stands before a row of its cell, and what it then has.**
-/

namespace CpuLimits

open Py

/-! ### Constants -/

/-- `PROTOCOL`. -/
def protocol : String := "cpu-limits-v1"

/-- `BLOCK_COLUMNS`. -/
def blockColumns : List String :=
  ["protocol", "phase", "run_id", "block_id", "seed", "position", "cell_id", "workload", "policy",
    "condition", "node", "pod_uid", "status", "started_at", "finished_at"]

/-- `CGROUP_COLUMNS`. -/
def cgroupColumns : List String :=
  ["protocol", "run_id", "block_id", "cell_id", "captured_at", "window", "level", "path", "key",
    "value", "unit"]

/-- `METRIC_COLUMNS`. -/
def metricColumns : List String :=
  ["protocol", "run_id", "block_id", "cell_id", "timestamp", "source", "metric", "value", "unit",
    "labels_json"]

/-- `THROUGHPUT_METRICS`. -/
def throughputMetrics : List (String × List String) :=
  [("cpu-bound", ["bogo_ops_per_second", "ops_per_second", "throughput"]),
    ("io-bound", ["requests_per_second", "throughput"]),
    ("memory-bound", ["bogo_ops_per_second", "ops_per_second", "throughput"]),
    ("hybrid", ["frames_per_second", "throughput"])]

/-! ### Records -/

/-- A file that is read. -/
structure CsvFile where
  path : String
  table : Table

/-- A block and a cell: the key of `complete`. -/
abbrev CellKey := Option String × Option String

/-- An entry of `incomplete_cells`. -/
structure IncompleteCell where
  blockId : Option String
  cellId : Option String
  status : Option String
  deriving DecidableEq

/-- The first result of `_cgroup_summary`. -/
structure CgroupSummary where
  cpuUsageSeconds : Option ℚ
  quotaUtilization : Option ℚ
  throttledPeriodRatio : Option ℚ
  throttledTimeSeconds : Option ℚ
  psiSomeSeconds : Option ℚ
  psiFullSeconds : Option ℚ
  deriving DecidableEq

/-- A complete cell.  Without rows of a cgroup level it has none of the fields of the summary. -/
structure Cell where
  blockId : Option String
  cellId : Option String
  workload : Option String
  policy : Option String
  condition : Option String
  cgroup : Option CgroupSummary
  throughput : Option ℚ
  latencyP99Ms : Option ℚ
  metrics : List (String × ℚ)
  cgroupParameters : List (String × String)
  deriving DecidableEq

/-- `CampaignCells`. -/
structure Campaign where
  cells : List Cell
  incompleteCells : List IncompleteCell
  deriving DecidableEq

/-! ### Reading -/

/-- `_read_csv`. -/
def readCsv (file : CsvFile) (required : List String) : Except Exc (List Row) :=
  let missing := (required.filter fun name => name ∉ file.table.header).insertionSort (· ≤ ·)
  if missing ≠ [] then
    valueError (file.path ++ ": missing required column(s): [" ++
      ", ".intercalate (missing.map quoted) ++ "]")
  else
    Py.traverse (fun row =>
      if row.field "protocol" ≠ some protocol then
        valueError (file.path ++ ": unsupported protocol " ++ quotedField (row.field "protocol"))
      else .ok row) file.table.rows

/-- `_number`. -/
def number (value : Option String) (name : String) : Except Exc ℚ :=
  match value with
  | none => typeError "float() argument must be a string or a real number, not 'NoneType'"
  | some text =>
    match parseFloat text with
    | .error _ => valueError (name ++ " must be numeric")
    | .ok (.fin q) =>
      if q < 0 then valueError (name ++ " must be finite and non-negative") else .ok q
    | .ok _ => valueError (name ++ " must be finite and non-negative")

/-- `s.lower()`, of a component of a path.  No character outside ASCII has a letter of "pilot" as
its lower case. -/
def lower (s : String) : String := String.ofList (s.toList.map Char.toLower)

/-- `_pilot_path`. -/
def pilotPath (path : String) : Bool := (pathParts path).any fun part => lower part = "pilot"

/-- The loop body of `_metric_values`. -/
def keepLatest (values : List (String × String × ℚ)) (row : Row) :
    Except Exc (List (String × String × ℚ)) := do
  let metric ← row.stripped "metric"
  if metric = "" then valueError "metrics CSV has an empty metric name"
  let timestamp ← row.stripped "timestamp"
  let value ← number (row.field "value") ("metric " ++ metric)
  if (values.lookup metric).all fun old => old.1 ≤ timestamp then
    .ok (Dict.update metric (fun _ => (timestamp, value)) values)
  else .ok values

/-- `_metric_values`. -/
def metricValues (rows : List Row) : Except Exc (List (String × ℚ)) :=
  (fold keepLatest [] rows).map fun values => values.map fun entry => (entry.1, entry.2.2)

/-! ### The cgroup summary -/

/-- `values` and `parameters`. -/
structure Readings where
  values : List ((Option String × Option String) × ℚ)
  parameters : List (String × String)

/-- `key in {"cpu.weight", "cpu.max.period", "cpu.max.quota"}`, for rows of the start or the end. -/
def parameterKey (row : Row) : Option String :=
  (row.field "key").filter fun key =>
    key ∈ ["cpu.weight", "cpu.max.period", "cpu.max.quota"] ∧
      row.field "window" ∈ [some "start", some "end"]

/-- The loop body of `_cgroup_summary`. -/
def takeReading (readings : Readings) (row : Row) : Except Exc Readings := do
  let raw ← row.stripped "value"
  if row.field "key" = some "cpu.max.quota" ∧ raw = "max" then
    .ok { readings with
      parameters := Dict.update "cpu.max.quota" (fun _ => raw) readings.parameters }
  else
    let value ← number (some raw) ("cgroup " ++ fieldText (row.field "key"))
    .ok
      { values := Dict.update (row.field "window", row.field "key") (fun _ => value)
          readings.values
        parameters := (parameterKey row).elim readings.parameters fun key =>
          Dict.update key (fun _ => raw) readings.parameters }

/-- `delta`. -/
def delta (values : List ((Option String × Option String) × ℚ)) (key : String) : Option ℚ :=
  match values.lookup (some "measurement_delta", some key) with
  | some measured => some measured
  | none =>
    match values.lookup (some "start", some key), values.lookup (some "end", some key) with
    | some start, some stop => some (stop - start)
    | _, _ => none

/-- `quota_utilization`. -/
def quotaUtilization (parameters : List (String × String)) (usage periods : Option ℚ) :
    Except Exc (Option ℚ) :=
  match usage, periods, parameters.lookup "cpu.max.quota", parameters.lookup "cpu.max.period" with
  | some usage, some periods, some quota, some _ =>
    if quota = "max" then .ok none
    else (number (some quota) "cpu.max.quota").map fun numericQuota =>
      if 0 < numericQuota ∧ 0 < periods then some (usage / (numericQuota * periods)) else none
  | _, _, _, _ => .ok none

/-- The level that `_cgroup_summary` prefers among those of the rows. -/
def selectedLevel (rows : List Row) : Option String :=
  ["container_leaf", "container_scope", "pod_slice"].find? fun level =>
    rows.any fun row => row.field "level" = some level

/-- `throttled_period_ratio`. -/
def throttledPeriodRatio (periods throttledPeriods : Option ℚ) : Option ℚ :=
  match periods, throttledPeriods with
  | some periods, some throttledPeriods =>
    if periods = 0 then none else some (throttledPeriods / periods)
  | _, _ => none

/-- `_cgroup_summary`. -/
def cgroupSummary (rows : List Row) :
    Except Exc (Option CgroupSummary × List (String × String)) :=
  match selectedLevel rows with
  | none => .ok (none, [])
  | some selected => do
    let readings ← fold takeReading { values := [], parameters := [] }
      (rows.filter fun row => row.field "level" = some selected)
    let usage := delta readings.values "cpu.stat.usage_usec"
    let periods := delta readings.values "cpu.stat.nr_periods"
    let throttledPeriods := delta readings.values "cpu.stat.nr_throttled"
    let throttledUsec := delta readings.values "cpu.stat.throttled_usec"
    let some' := delta readings.values "cpu.pressure.some_total_usec"
    let full := delta readings.values "cpu.pressure.full_total_usec"
    let utilization ← quotaUtilization readings.parameters usage periods
    if (match periods, throttledPeriods with
      | some periods, some throttledPeriods => decide (periods < throttledPeriods)
      | _, _ => false) = true then valueError "nr_throttled exceeds nr_periods"
    .ok (some
      { cpuUsageSeconds := usage.map (· / 1000000)
        quotaUtilization := utilization
        throttledPeriodRatio := throttledPeriodRatio periods throttledPeriods
        throttledTimeSeconds := throttledUsec.map (· / 1000000)
        psiSomeSeconds := some'.map (· / 1000000)
        psiFullSeconds := full.map (· / 1000000) }, readings.parameters)

/-! ### Complete and incomplete cells -/

/-- The key of a row. -/
def cellKey (row : Row) : CellKey := (row.field "block_id", row.field "cell_id")

/-- `row["status"] == "complete"`. -/
def isComplete (row : Row) : Bool := row.field "status" = some "complete"

/-- `complete` and `incomplete`. -/
structure Filed where
  complete : List (CellKey × Row)
  incomplete : List IncompleteCell

/-- The entry of an incomplete row. -/
def incompleteCell (row : Row) : IncompleteCell where
  blockId := row.field "block_id"
  cellId := row.field "cell_id"
  status := row.field "status"

/-- A row filed as complete or incomplete. -/
def Filed.add (filed : Filed) (row : Row) : Filed :=
  if isComplete row then
    { filed with complete := Dict.update (cellKey row) (fun _ => row) filed.complete }
  else { filed with incomplete := filed.incomplete ++ [incompleteCell row] }

/-- The check of the phase. -/
def checkPhase (expectedPhase : String) (row : Row) : Except Exc Unit :=
  (row.stripped "phase").bind fun phase =>
    if phase = "pilot" ∧ expectedPhase = "confirmatory" then
      valueError "confirmatory analysis refuses pilot rows"
    else if phase ≠ expectedPhase then
      valueError ("blocks CSV has " ++ quoted phase ++ " row in " ++ quoted expectedPhase ++
        " analysis")
    else .ok ()

/-- The loop body over the blocks. -/
def fileRow (expectedPhase : String) (filed : Filed) (row : Row) : Except Exc Filed :=
  (checkPhase expectedPhase row).bind fun _ =>
    if cellKey row ∈ filed.complete.map Prod.fst then
      valueError ("duplicate scheduled cell block=" ++ quotedField (row.field "block_id") ++
        " cell=" ++ quotedField (row.field "cell_id"))
    else .ok (filed.add row)

/-- The keys can be compared: where they differ first, both are strings. -/
def Comparable (a b : CellKey) : Prop :=
  if a.1 = b.1 then a.2 = b.2 ∨ a.2.isSome ∧ b.2.isSome else a.1.isSome ∧ b.1.isSome

instance : DecidableRel Comparable := fun a b =>
  inferInstanceAs (Decidable (if a.1 = b.1 then _ else _))

/-- The order of the keys. -/
def itemLe (a b : CellKey × Row) : Prop :=
  if a.1.1 = b.1.1 then a.1.2.getD "" ≤ b.1.2.getD "" else a.1.1.getD "" ≤ b.1.1.getD ""

instance : DecidableRel itemLe := fun a b =>
  inferInstanceAs (Decidable (if a.1.1 = b.1.1 then _ else _))

/-- `sorted(complete.items())`.  The keys differ, so that the rows are never compared.  No sort can
do without comparing two keys that cannot be compared; the error names the types in the order in
which the sort meets them. -/
def sortedItems (complete : List (CellKey × Row)) : Except Exc (List (CellKey × Row)) :=
  if ∀ a ∈ complete, ∀ b ∈ complete, Comparable a.1 b.1 then .ok (complete.insertionSort itemLe)
  else typeError "'<' not supported between instances of 'NoneType' and 'str'"

/-- The first of some metrics that a cell has. -/
def firstMetric (values : List (String × ℚ)) (names : List String) : Option ℚ :=
  names.findSome? fun name => values.lookup name

/-- The summary of a complete cell. -/
def summarise (cgroups metrics : List Row) (item : CellKey × Row) : Except Exc Cell := do
  let (summary, parameters) ← cgroupSummary (Dict.share cellKey cgroups item.1)
  let values ← metricValues (Dict.share cellKey metrics item.1)
  let workload := item.2.field "workload"
  .ok
    { blockId := item.1.1
      cellId := item.1.2
      workload := workload
      policy := item.2.field "policy"
      condition := item.2.field "condition"
      cgroup := summary
      throughput := firstMetric values ((workload.bind (throughputMetrics.lookup ·)).getD [])
      latencyP99Ms := firstMetric values ["latency_p99_ms", "p99_latency_ms"]
      metrics := values
      cgroupParameters := parameters }

/-- The order of `cells.sort`. -/
def cellLe (a b : Cell) : Prop :=
  if fieldText a.blockId = fieldText b.blockId then fieldText a.cellId ≤ fieldText b.cellId
  else fieldText a.blockId ≤ fieldText b.blockId

instance : DecidableRel cellLe := fun a b =>
  inferInstanceAs (Decidable (if fieldText a.blockId = fieldText b.blockId then _ else _))

/-- `load_campaign`. -/
def loadCampaign (blocks cgroups metrics : CsvFile) (expectedPhase : String) :
    Except Exc Campaign :=
  if expectedPhase = "confirmatory" ∧ ∃ file ∈ [blocks, cgroups, metrics], pilotPath file.path then
    valueError "confirmatory analysis rejects rows from a pilot tree"
  else do
    let blockRows ← readCsv blocks blockColumns
    let cgroupRows ← readCsv cgroups cgroupColumns
    let metricRows ← readCsv metrics metricColumns
    let filed ← fold (fileRow expectedPhase) { complete := [], incomplete := [] } blockRows
    let items ← sortedItems filed.complete
    let cells ← Py.traverse (summarise cgroupRows metricRows) items
    .ok { cells := cells.insertionSort cellLe, incompleteCells := filed.incomplete }

/-! ### What is loaded -/

section Loaded

/-- A file with the required columns and rows of the protocol. -/
structure Readable (file : CsvFile) (required : List String) : Prop where
  columns : ∀ name ∈ required, name ∈ file.table.header
  rows : ∀ row ∈ file.table.rows, row.field "protocol" = some protocol

theorem readCsv_eq_ok {file : CsvFile} {required : List String} {rows : List Row} :
    readCsv file required = .ok rows ↔ Readable file required ∧ rows = file.table.rows := by
  have hmissing :
      (required.filter fun name => name ∉ file.table.header).insertionSort (· ≤ ·) = [] ↔
        ∀ name ∈ required, name ∈ file.table.header := by
    rw [List.eq_nil_iff_forall_not_mem]
    simp [List.mem_insertionSort]
  have hrows : ∀ xs ys : List Row, Py.traverse (fun row =>
      if row.field "protocol" ≠ some protocol then
        valueError (file.path ++ ": unsupported protocol " ++ quotedField (row.field "protocol"))
      else .ok row) xs = .ok ys ↔
      (∀ row ∈ xs, row.field "protocol" = some protocol) ∧ ys = xs := by
    intro xs ys
    rw [traverse_eq_ok]
    constructor
    · intro h
      induction h with
      | nil => simp
      | cons hrow _ ih =>
        obtain ⟨hprotocol, hrow⟩ := ite_error_eq_ok.1 hrow
        cases hrow
        exact ⟨List.forall_mem_cons.2 ⟨not_not.1 hprotocol, ih.1⟩, by rw [ih.2]⟩
    · rintro ⟨hall, rfl⟩
      rw [List.forall₂_same]
      exact fun row hrow => if_neg (not_not.2 (hall row hrow))
  rw [readCsv]
  split_ifs with h
  · exact iff_of_false (fun h => by cases h) fun hand => h (hmissing.2 hand.1.columns)
  · rw [hrows]
    rw [not_not, hmissing] at h
    exact ⟨fun hand => ⟨⟨h, hand.1⟩, hand.2⟩, fun hand => ⟨hand.1.rows, hand.2⟩⟩

/-- The row is of the expected phase. -/
def InPhase (expectedPhase : String) (row : Row) : Prop :=
  ∃ text, row.field "phase" = some text ∧ strip text = expectedPhase

theorem checkPhase_eq_ok {expectedPhase : String} {row : Row} :
    checkPhase expectedPhase row = .ok () ↔ InPhase expectedPhase row := by
  rw [checkPhase, bind_eq_ok, InPhase]
  constructor
  · rintro ⟨phase, hphase, h⟩
    rw [Row.stripped] at hphase
    rcases hfield : row.field "phase" with _ | text
    · rw [hfield] at hphase
      cases hphase
    · rw [hfield] at hphase
      cases hphase
      obtain ⟨-, h⟩ := ite_error_eq_ok.1 h
      obtain ⟨heq, -⟩ := ite_error_eq_ok.1 h
      exact ⟨text, rfl, not_not.1 heq⟩
  · rintro ⟨text, hfield, rfl⟩
    refine ⟨strip text, by rw [Row.stripped, hfield], ?_⟩
    rw [if_neg, if_neg (not_not.2 rfl)]
    rintro ⟨hpilot, hconfirmatory⟩
    rw [hpilot] at hconfirmatory
    exact absurd hconfirmatory (by decide)

/-- No complete row stands before a row of the same cell. -/
def Ordered (rows : List Row) : Prop :=
  rows.Pairwise fun a b => isComplete a = true → cellKey a ≠ cellKey b

/-- What the loop leaves of the rows. -/
def filedOf (rows : List Row) : Filed where
  complete := (rows.filter fun row => isComplete row).map fun row => (cellKey row, row)
  incomplete := (rows.filter fun row => !isComplete row).map incompleteCell

theorem mem_keys_filedOf {rows : List Row} {key : CellKey} :
    key ∈ (filedOf rows).complete.map Prod.fst ↔
      ∃ row ∈ rows, isComplete row = true ∧ cellKey row = key := by
  simp [filedOf, and_assoc]

theorem filedOf_append_singleton {rows : List Row} {row : Row}
    (h : cellKey row ∉ (filedOf rows).complete.map Prod.fst) :
    filedOf (rows ++ [row]) = (filedOf rows).add row := by
  rw [Filed.add]
  split_ifs with hcomplete
  · rw [Dict.update_of_notMem h]
    simp [filedOf, List.filter_append, hcomplete]
  · simp [filedOf, List.filter_append, hcomplete]

/-- **The loop over the blocks** accepts the rows of the phase in which no complete row stands
before a row of the same cell. -/
theorem fold_fileRow {expectedPhase : String} {rows : List Row} {filed : Filed} :
    fold (fileRow expectedPhase) { complete := [], incomplete := [] } rows = .ok filed ↔
      (∀ row ∈ rows, InPhase expectedPhase row) ∧ Ordered rows ∧ filed = filedOf rows := by
  -- on the rows filed so far: the last row is checked against all of them
  induction rows using List.reverseRecOn generalizing filed with
  | nil =>
    constructor
    · intro h
      cases h
      exact ⟨by simp, List.Pairwise.nil, rfl⟩
    · rintro ⟨-, -, rfl⟩
      rfl
  | append_singleton rows row ih =>
    have hstep : fold (fileRow expectedPhase) (filedOf rows) [row] = .ok filed ↔
        InPhase expectedPhase row ∧ cellKey row ∉ (filedOf rows).complete.map Prod.fst ∧
          filed = (filedOf rows).add row := by
      simp only [fold, fileRow, bind_eq_ok, ← checkPhase_eq_ok, valueError, ite_error_eq_ok]
      constructor
      · rintro ⟨filed', ⟨u, hphase, hnew, hadd⟩, h⟩
        cases h
        cases hadd
        exact ⟨hphase, hnew, rfl⟩
      · rintro ⟨hphase, hnew, rfl⟩
        exact ⟨_, ⟨(), hphase, hnew, rfl⟩, rfl⟩
    have hordered : Ordered (rows ++ [row]) ↔
        Ordered rows ∧ cellKey row ∉ (filedOf rows).complete.map Prod.fst := by
      rw [Ordered, List.pairwise_append, mem_keys_filedOf]
      refine and_congr_right fun _ => ?_
      simp
    rw [fold_append, bind_eq_ok, hordered]
    constructor
    · rintro ⟨filed', h, hlast⟩
      obtain ⟨hphase, hord, rfl⟩ := ih.1 h
      obtain ⟨hphase', hnew, rfl⟩ := hstep.1 hlast
      refine ⟨?_, ⟨hord, hnew⟩, (filedOf_append_singleton hnew).symm⟩
      intro r hr
      rcases List.mem_append.1 hr with hr | hr
      · exact hphase r hr
      · rw [List.mem_singleton.1 hr]
        exact hphase'
    · rintro ⟨hphase, ⟨hord, hnew⟩, rfl⟩
      have hphase' := List.forall_mem_append.1 hphase
      exact ⟨filedOf rows, ih.2 ⟨hphase'.1, hord, rfl⟩,
        hstep.2 ⟨hphase'.2 row (List.mem_singleton_self row), hnew,
          filedOf_append_singleton hnew⟩⟩

variable (blocks cgroups metrics : CsvFile) (expectedPhase : String)

/-- What `load_campaign` demands of the tables, whatever the order of the rows: no pilot file, the
columns, the protocol and the phase, one complete row a cell, keys that can be sorted, and a summary
of every complete cell. -/
structure Admissible : Prop where
  notPilot : ¬ (expectedPhase = "confirmatory" ∧
    ∃ file ∈ [blocks, cgroups, metrics], pilotPath file.path)
  blocksReadable : Readable blocks blockColumns
  cgroupsReadable : Readable cgroups cgroupColumns
  metricsReadable : Readable metrics metricColumns
  phase : ∀ row ∈ blocks.table.rows, InPhase expectedPhase row
  once : ((blocks.table.rows.filter fun row => isComplete row).map cellKey).Nodup
  comparable : ∀ a ∈ blocks.table.rows, ∀ b ∈ blocks.table.rows, isComplete a = true →
    isComplete b = true → Comparable (cellKey a) (cellKey b)
  summaries : ∀ row ∈ blocks.table.rows, isComplete row = true →
    ∃ cell, summarise cgroups.table.rows metrics.table.rows (cellKey row, row) = .ok cell

variable {blocks cgroups metrics expectedPhase}

theorem mem_complete_filedOf {rows : List Row} {item : CellKey × Row} :
    item ∈ (filedOf rows).complete ↔
      item.2 ∈ rows ∧ isComplete item.2 = true ∧ cellKey item.2 = item.1 := by
  obtain ⟨key, row⟩ := item
  simp only [filedOf, List.mem_map, List.mem_filter, Prod.mk.injEq]
  constructor
  · rintro ⟨row, ⟨hrow, hcomplete⟩, rfl, rfl⟩
    exact ⟨hrow, hcomplete, rfl⟩
  · rintro ⟨hrow, hcomplete, rfl⟩
    exact ⟨row, ⟨hrow, hcomplete⟩, rfl, rfl⟩

theorem nodup_of_ordered {rows : List Row} (h : Ordered rows) :
    ((rows.filter fun row => isComplete row).map cellKey).Nodup := by
  rw [List.Nodup, List.pairwise_map, List.pairwise_filter]
  exact h.imp fun hab ha _ => hab ha

/-- The two checks after the loop, over the complete rows. -/
theorem sortedItems_eq_ok {rows : List Row} {items : List (CellKey × Row)} :
    sortedItems (filedOf rows).complete = .ok items ↔
      (∀ a ∈ rows, ∀ b ∈ rows, isComplete a = true → isComplete b = true →
        Comparable (cellKey a) (cellKey b)) ∧
      items = (filedOf rows).complete.insertionSort itemLe := by
  have hcomparable : (∀ a ∈ (filedOf rows).complete, ∀ b ∈ (filedOf rows).complete,
      Comparable a.1 b.1) ↔ ∀ a ∈ rows, ∀ b ∈ rows, isComplete a = true → isComplete b = true →
        Comparable (cellKey a) (cellKey b) := by
    constructor
    · intro h a ha b hb hac hbc
      exact h (cellKey a, a) (mem_complete_filedOf.2 ⟨ha, hac, rfl⟩) (cellKey b, b)
        (mem_complete_filedOf.2 ⟨hb, hbc, rfl⟩)
    · intro h a ha b hb
      obtain ⟨har, hac, hak⟩ := mem_complete_filedOf.1 ha
      obtain ⟨hbr, hbc, hbk⟩ := mem_complete_filedOf.1 hb
      rw [← hak, ← hbk]
      exact h a.2 har b.2 hbr hac hbc
  rw [sortedItems, ← hcomparable]
  split_ifs with h
  · exact ⟨fun heq => ⟨h, (Except.ok.inj heq).symm⟩, fun hand => congrArg _ hand.2.symm⟩
  · exact iff_of_false (fun heq => by cases heq) fun hand => h hand.1

/-- A summary keeps the key. -/
theorem key_summarise {cgroupRows metricRows : List Row} {item : CellKey × Row} {cell : Cell}
    (h : summarise cgroupRows metricRows item = .ok cell) :
    (cell.blockId, cell.cellId) = item.1 := by
  obtain ⟨_, -, h⟩ := bind_eq_ok.1 h
  obtain ⟨_, -, h⟩ := bind_eq_ok.1 h
  cases h
  rfl

/-- **What is loaded**: the tables are admissible, no complete row stands before a row of its cell,
and the campaign has the summaries of the complete rows and the entries of the others. -/
theorem loadCampaign_eq_ok {campaign : Campaign} :
    loadCampaign blocks cgroups metrics expectedPhase = .ok campaign ↔
      Admissible blocks cgroups metrics expectedPhase ∧ Ordered blocks.table.rows ∧
      ∃ cells, Py.traverse (summarise cgroups.table.rows metrics.table.rows)
          ((filedOf blocks.table.rows).complete.insertionSort itemLe) = .ok cells ∧
        campaign =
          { cells := cells.insertionSort cellLe
            incompleteCells := (filedOf blocks.table.rows).incomplete } := by
  rw [loadCampaign, valueError, ite_error_eq_ok]
  constructor
  · rintro ⟨hpilot, h⟩
    obtain ⟨blockRows, hblocks, h⟩ := bind_eq_ok.1 h
    obtain ⟨cgroupRows, hcgroups, h⟩ := bind_eq_ok.1 h
    obtain ⟨metricRows, hmetrics, h⟩ := bind_eq_ok.1 h
    obtain ⟨filed, hfiled, h⟩ := bind_eq_ok.1 h
    obtain ⟨items, hitems, h⟩ := bind_eq_ok.1 h
    obtain ⟨cells, hcells, h⟩ := bind_eq_ok.1 h
    cases h
    obtain ⟨readableBlocks, rfl⟩ := readCsv_eq_ok.1 hblocks
    obtain ⟨readableCgroups, rfl⟩ := readCsv_eq_ok.1 hcgroups
    obtain ⟨readableMetrics, rfl⟩ := readCsv_eq_ok.1 hmetrics
    obtain ⟨hphase, hordered, rfl⟩ := fold_fileRow.1 hfiled
    obtain ⟨hcomparable, rfl⟩ := sortedItems_eq_ok.1 hitems
    refine ⟨⟨hpilot, readableBlocks, readableCgroups, readableMetrics, hphase,
      nodup_of_ordered hordered, hcomparable, fun row hrow hcomplete => ?_⟩, hordered, cells,
      hcells, rfl⟩
    exact traverse_isOk.1 ⟨cells, hcells⟩ _ ((List.mem_insertionSort _).2
      (mem_complete_filedOf.2 ⟨hrow, hcomplete, rfl⟩))
  · rintro ⟨hadmissible, hordered, cells, hcells, rfl⟩
    refine ⟨hadmissible.notPilot, ?_⟩
    refine bind_eq_ok.2 ⟨_, readCsv_eq_ok.2 ⟨hadmissible.blocksReadable, rfl⟩, ?_⟩
    refine bind_eq_ok.2 ⟨_, readCsv_eq_ok.2 ⟨hadmissible.cgroupsReadable, rfl⟩, ?_⟩
    refine bind_eq_ok.2 ⟨_, readCsv_eq_ok.2 ⟨hadmissible.metricsReadable, rfl⟩, ?_⟩
    refine bind_eq_ok.2 ⟨_, fold_fileRow.2 ⟨hadmissible.phase, hordered, rfl⟩, ?_⟩
    refine bind_eq_ok.2 ⟨_, sortedItems_eq_ok.2 ⟨hadmissible.comparable, rfl⟩, ?_⟩
    exact bind_eq_ok.2 ⟨cells, hcells, rfl⟩

/-- Admissible tables are loaded when no complete row stands before a row of its cell. -/
theorem exists_loadCampaign_iff :
    (∃ campaign, loadCampaign blocks cgroups metrics expectedPhase = .ok campaign) ↔
      Admissible blocks cgroups metrics expectedPhase ∧ Ordered blocks.table.rows := by
  constructor
  · rintro ⟨campaign, h⟩
    obtain ⟨hadmissible, hordered, -⟩ := loadCampaign_eq_ok.1 h
    exact ⟨hadmissible, hordered⟩
  · rintro ⟨hadmissible, hordered⟩
    have hsummaries : ∀ item ∈ (filedOf blocks.table.rows).complete.insertionSort itemLe,
        ∃ cell, summarise cgroups.table.rows metrics.table.rows item = .ok cell := by
      intro item hitem
      obtain ⟨hrow, hcomplete, hkey⟩ := mem_complete_filedOf.1 ((List.mem_insertionSort _).1 hitem)
      obtain ⟨cell, hcell⟩ := hadmissible.summaries item.2 hrow hcomplete
      rw [hkey] at hcell
      exact ⟨cell, hcell⟩
    obtain ⟨cells, hcells⟩ := traverse_isOk.2 hsummaries
    exact ⟨_, loadCampaign_eq_ok.2 ⟨hadmissible, hordered, cells, hcells, rfl⟩⟩

end Loaded

end CpuLimits

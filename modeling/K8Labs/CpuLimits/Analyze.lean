import K8Labs.CpuLimits.LoadCampaign
import K8Labs.CpuLimits.Stats

/-!
# The campaign analysis

`analyze` of `research/cpu-limits/analysis/analyze.py`: for every planned family and every workload
the paired log ratios of two policies over the blocks (`gather`, `pairs`), their interval and
p-value, and in a confirmatory campaign Holm's step-down over each family.

* `gather_eq_ok`: the values of an arm are those of the last cell of each block, and the metric of a
  contrast is that of the last cell of all.
-/

namespace CpuLimits

open Py

/-! ### Constants -/

/-- `MIN_BLOCKS`. -/
def minBlocks : ℕ := 3

/-- `PERFORMANCE_MARGIN`. -/
def performanceMargin : ℚ := 1 / 20

/-- `THROTTLE_MARGIN`. -/
def throttleMargin : ℚ := 1 / 10

/-- An entry of `FAMILIES`. -/
structure Family where
  name : String
  controlPolicy : String
  treatmentPolicy : String
  condition : String
  margin : ℚ
  plannedSize : ℕ

/-- `FAMILIES`. -/
def families : List Family :=
  [{ name := "limit_effect"
     controlPolicy := "fit"
     treatmentPolicy := "burstable-low"
     condition := "solo"
     margin := performanceMargin
     plannedSize := 4 },
    { name := "request_weight"
      controlPolicy := "request-high"
      treatmentPolicy := "request-low"
      condition := "contention"
      margin := performanceMargin
      plannedSize := 4 },
    { name := "guaranteed_vs_burstable"
      controlPolicy := "burstable-low"
      treatmentPolicy := "guaranteed-low"
      condition := "contention"
      margin := performanceMargin
      plannedSize := 4 },
    { name := "throttle_gap"
      controlPolicy := "fit"
      treatmentPolicy := "burstable-low"
      condition := "solo"
      margin := throttleMargin
      plannedSize := 8 }]

/-! ### Records -/

/-- The result of `_outcome`. -/
structure Outcome where
  metric : String
  value : Option ℚ
  lowerIsBetter : Bool

/-- What the loop over the cells fills. -/
structure Sides where
  control : List (String × Option ℚ)
  treatment : List (String × Option ℚ)
  metric : String
  lowerIsBetter : Bool

/-- The decision of a contrast that is not incomplete. -/
inductive ContrastDecision where
  | pilotDescriptive
  | inconclusive
  | improvement
  | regression
  | equivalent
  deriving DecidableEq

/-- The fields of an entry of `contrasts` that is not incomplete. -/
structure Estimate where
  decision : ContrastDecision
  estimate : ℚ
  ciLow : ℚ
  ciHigh : ℚ
  pValue : ℚ
  /-- `holm_threshold` and `holm_rejected`, in a confirmatory campaign. -/
  holm : Option (ℚ × Bool)
  deriving DecidableEq

/-- An entry of `contrasts`; without an estimate its decision is "incomplete". -/
structure Contrast where
  family : String
  workload : String
  metric : String
  control : String
  treatment : String
  condition : String
  margin : ℚ
  plannedFamilySize : ℕ
  pairedBlocks : List String
  missingBlocks : List String
  estimated : Option Estimate
  deriving DecidableEq

/-- The record that `analyze` returns. -/
structure Analysis where
  protocol : String
  phase : String
  cells : List Cell
  contrasts : List Contrast
  incompleteCells : List IncompleteCell
  deriving DecidableEq

/-! ### The outcome of a cell -/

/-- The cell is compared by its latency. -/
def reportsLatency (cell : Cell) : Bool :=
  cell.workload ∈ [some "io-bound", some "hybrid"] ∧ cell.latencyP99Ms.isSome

/-- `_outcome`. -/
def outcome (cell : Cell) (family : String) : Except Exc Outcome :=
  if family = "throttle_gap" then
    match cell.cgroup with
    | some summary => .ok
      { metric := "throttled_period_ratio"
        value := summary.throttledPeriodRatio
        lowerIsBetter := false }
    | none => .error ⟨.keyError, "'throttled_period_ratio'"⟩
  else if reportsLatency cell then
    .ok { metric := "latency_p99_ms", value := cell.latencyP99Ms, lowerIsBetter := true }
  else .ok { metric := "throughput", value := cell.throughput, lowerIsBetter := false }

/-! ### The pairs of a contrast -/

section Pairing

variable (family : Family) (workload : String)

/-- The cell is of the workload and the condition of the contrast. -/
def Concerns (cell : Cell) : Prop :=
  cell.workload = some workload ∧ cell.condition = some family.condition

instance (cell : Cell) : Decidable (Concerns family workload cell) :=
  inferInstanceAs (Decidable (_ ∧ _))

/-- `d[str(cell["block_id"])] = value`, for the cells of a policy. -/
def fileValue (policy : String) (cell : Cell) (value : Option ℚ)
    (values : List (String × Option ℚ)) : List (String × Option ℚ) :=
  if cell.policy = some policy then Dict.update (fieldText cell.blockId) (fun _ => value) values
  else values

/-- The loop body over the cells. -/
def gatherCell (sides : Sides) (cell : Cell) : Except Exc Sides :=
  if ¬ Concerns family workload cell then .ok sides
  else (outcome cell family.name).map fun found =>
    { control := fileValue family.controlPolicy cell found.value sides.control
      treatment := fileValue family.treatmentPolicy cell found.value sides.treatment
      metric := found.metric
      lowerIsBetter := found.lowerIsBetter }

/-- The loop over the cells. -/
def gather (cells : List Cell) : Except Exc Sides :=
  fold (gatherCell family workload)
    { control := [], treatment := [], metric := "throughput", lowerIsBetter := false } cells

end Pairing

/-- The values that are positive, in the place of the others none. -/
def keepPositive (values : List (String × Option ℚ)) : List (String × Option ℚ) :=
  values.map fun entry => (entry.1, entry.2.filter fun value => 0 < value)

section Analyze

variable (maths : Maths ℚ)

/-- `paired`: a pilot keeps the blocks with a throttle ratio of zero as incomplete. -/
def pairs (phase : String) (family : Family) (sides : Sides) : Except Exc PairedLogRatios :=
  if phase = "pilot" ∧ family.name = "throttle_gap" then
    pairedLogRatios maths (keepPositive sides.control) (keepPositive sides.treatment)
  else pairedLogRatios maths sides.control sides.treatment

/-- `_p_value`. -/
def pValue (logRatios : List ℚ) : Except Exc ℚ :=
  if logRatios.length < 2 then .ok 1
  else
    let mean := fmean logRatios
    let standardError := stdev maths logRatios / maths.sqrt logRatios.length
    if standardError = 0 then .ok (if mean ≠ 0 then 0 else 1)
    else
      (studentTCdf maths |mean / standardError| (logRatios.length - 1)).map fun cdf =>
        min 1 (2 * (1 - cdf))

/-- The contrast has a missing block or too few pairs. -/
def Incomplete (paired : PairedLogRatios) : Prop :=
  paired.missingBlocks ≠ [] ∨ paired.logRatios.length < minBlocks

instance (paired : PairedLogRatios) : Decidable (Incomplete paired) :=
  inferInstanceAs (Decidable (_ ∨ _))

/-- The log ratios with the better side up. -/
def oriented (sides : Sides) (paired : PairedLogRatios) : List ℚ :=
  paired.logRatios.map fun value => if sides.lowerIsBetter then -value else value

/-- The interval and the p-value of a contrast. -/
def estimateOf (phase : String) (logs : List ℚ) : Except Exc Estimate := do
  let interval ← pairedTInterval maths logs (19 / 20)
  let p ← pValue maths logs
  .ok
    { decision := if phase = "pilot" then .pilotDescriptive else .inconclusive
      estimate := interval.estimate
      ciLow := interval.low
      ciHigh := interval.high
      pValue := p
      holm := none }

/-- The estimate of a contrast, none when it is incomplete. -/
def estimatedOf (phase : String) (sides : Sides) (paired : PairedLogRatios) :
    Except Exc (Option Estimate) :=
  if Incomplete paired then .ok none
  else (estimateOf maths phase (oriented sides paired)).map some

/-- The loop body over the families and the workloads. -/
def contrastOf (phase : String) (cells : List Cell) (family : Family) (workload : String) :
    Except Exc Contrast := do
  let sides ← gather family workload cells
  let paired ← pairs maths phase family sides
  let estimated ← estimatedOf maths phase sides paired
  .ok
    { family := family.name
      workload := workload
      metric := sides.metric
      control := family.controlPolicy
      treatment := family.treatmentPolicy
      condition := family.condition
      margin := family.margin
      plannedFamilySize := family.plannedSize
      pairedBlocks := paired.pairedBlocks
      missingBlocks := paired.missingBlocks
      estimated := estimated }

/-- `workloads`. -/
def workloads (cells : List Cell) : List String :=
  ((cells.map fun cell => fieldText cell.workload).dedup).insertionSort (· ≤ ·)

/-- The contrasts in the order of the loops. -/
def planned (cells : List Cell) : List (Family × String) :=
  families.flatMap fun family => (workloads cells).map fun workload => (family, workload)

/-! ### The corrections -/

/-- The decision of a contrast after its correction. -/
def settle (margin : ℚ) (estimate : Estimate) (correction : HolmDecision) :
    Except Exc Estimate :=
  let marked := { estimate with holm := some (correction.threshold, correction.rejected) }
  let band := maths.log (1 + margin)
  if correction.rejected = true ∧ 1 + margin ≤ estimate.estimate then
    .ok { marked with decision := .improvement }
  else if correction.rejected = true ∧ estimate.estimate ≤ 1 / (1 + margin) then
    .ok { marked with decision := .regression }
  else
    (maths.logOf estimate.ciLow).bind fun low =>
      if low < -band then .ok marked
      else (maths.logOf estimate.ciHigh).map fun high =>
        if high ≤ band then { marked with decision := .equivalent } else marked

/-- The estimate of a row of the family. -/
def estimateIn (family : Family) (row : Contrast) : Option Estimate :=
  if row.family = family.name then row.estimated else none

/-- The estimates of a family. -/
def eligible (family : Family) (contrasts : List Contrast) : List Estimate :=
  contrasts.filterMap (estimateIn family)

/-- The eligible rows take the corrections in turn. -/
def settleAll (family : Family) : List HolmDecision → List Contrast → Except Exc (List Contrast)
  | _, [] => .ok []
  | [], row :: rows => .ok (row :: rows)
  | correction :: corrections, row :: rows =>
    match estimateIn family row with
    | some estimate => (settle maths family.margin estimate correction).bind fun settled =>
        (settleAll family corrections rows).map fun rows =>
          { row with estimated := some settled } :: rows
    | none => (settleAll family (correction :: corrections) rows).map fun rows => row :: rows

/-- The loop body over the families. -/
def correct (contrasts : List Contrast) (family : Family) : Except Exc (List Contrast) :=
  (holmDecisions ((eligible family contrasts).map fun estimate => .fin estimate.pValue)
    family.plannedSize (1 / 20)).bind fun corrections =>
      settleAll maths family corrections contrasts

/-- The corrections of a confirmatory campaign. -/
def corrected (phase : String) (contrasts : List Contrast) : Except Exc (List Contrast) :=
  if phase = "pilot" then .ok contrasts else fold (correct maths) contrasts families

/-- `analyze`. -/
def analyze (campaign : Campaign) (phase : String) : Except Exc Analysis :=
  if phase ∉ ["pilot", "confirmatory"] then
    valueError ("unsupported analysis phase: " ++ quoted phase)
  else do
    let contrasts ← Py.traverse (fun entry => contrastOf maths phase campaign.cells entry.1 entry.2)
      (planned campaign.cells)
    let contrasts ← corrected maths phase contrasts
    .ok
      { protocol := protocol
        phase := phase
        cells := campaign.cells
        contrasts := contrasts
        incompleteCells := campaign.incompleteCells }

end Analyze

/-! ### What the cells say of a contrast -/

/-- The cell has the field the family compares. -/
def HasField (family : String) (cell : Cell) : Prop :=
  family = "throttle_gap" → cell.cgroup.isSome = true

/-- The outcome of a cell that has the field. -/
def measured (cell : Cell) (family : String) : Outcome :=
  if family = "throttle_gap" then
    { metric := "throttled_period_ratio"
      value := cell.cgroup.bind CgroupSummary.throttledPeriodRatio
      lowerIsBetter := false }
  else if reportsLatency cell then
    { metric := "latency_p99_ms", value := cell.latencyP99Ms, lowerIsBetter := true }
  else { metric := "throughput", value := cell.throughput, lowerIsBetter := false }

theorem outcome_eq_ok {cell : Cell} {family : String} {found : Outcome} :
    outcome cell family = .ok found ↔ HasField family cell ∧ found = measured cell family := by
  rw [outcome, HasField, measured]
  split_ifs with hfamily hlatency
  · rcases cell.cgroup with _ | summary
    · exact iff_of_false (fun h => by cases h) fun h => by simpa using h.1 hfamily
    · exact ⟨fun h => ⟨fun _ => rfl, (Except.ok.inj h).symm⟩, fun h => congrArg _ h.2.symm⟩
  · exact ⟨fun h => ⟨fun h => absurd h hfamily, (Except.ok.inj h).symm⟩,
      fun h => congrArg _ h.2.symm⟩
  · exact ⟨fun h => ⟨fun h => absurd h hfamily, (Except.ok.inj h).symm⟩,
      fun h => congrArg _ h.2.symm⟩

section Cells

variable (cells : List Cell) (family : Family) (workload : String)

/-- The cells of a contrast. -/
def concerned : List Cell := cells.filter fun cell => Concerns family workload cell

/-- The cells of an arm. -/
def armCells (policy : String) : List Cell :=
  (concerned cells family workload).filter fun cell => cell.policy = some policy

/-- The cell whose value an arm has in a block: the last one. -/
def lastCell (policy block : String) : Option Cell :=
  (Dict.share (fun cell => fieldText cell.blockId) (armCells cells family workload policy)
    block).getLast?

/-- What the loop over the cells leaves. -/
def sidesOf : Sides where
  control := Dict.index (fun cell => fieldText cell.blockId) (fun cell =>
    (measured cell family.name).value) (armCells cells family workload family.controlPolicy)
  treatment := Dict.index (fun cell => fieldText cell.blockId) (fun cell =>
    (measured cell family.name).value) (armCells cells family workload family.treatmentPolicy)
  metric := (concerned cells family workload).getLast?.elim "throughput" fun cell =>
    (measured cell family.name).metric
  lowerIsBetter := (concerned cells family workload).getLast?.elim false fun cell =>
    (measured cell family.name).lowerIsBetter

variable {cells family workload}

theorem mem_concerned {cell : Cell} :
    cell ∈ concerned cells family workload ↔ cell ∈ cells ∧ Concerns family workload cell := by
  simp [concerned]

/-- What a cell of the contrast adds. -/
def addCell (family : Family) (sides : Sides) (cell : Cell) : Sides where
  control := fileValue family.controlPolicy cell (measured cell family.name).value sides.control
  treatment := fileValue family.treatmentPolicy cell (measured cell family.name).value
    sides.treatment
  metric := (measured cell family.name).metric
  lowerIsBetter := (measured cell family.name).lowerIsBetter

theorem gatherCell_eq_ok {sides sides' : Sides} {cell : Cell} :
    gatherCell family workload sides cell = .ok sides' ↔
      (Concerns family workload cell → HasField family.name cell) ∧
        sides' = if Concerns family workload cell then addCell family sides cell else sides := by
  rw [gatherCell]
  by_cases hcell : Concerns family workload cell
  · rw [if_neg (not_not.2 hcell), if_pos hcell, map_eq_ok]
    constructor
    · rintro ⟨found, hfound, rfl⟩
      obtain ⟨hfield, rfl⟩ := outcome_eq_ok.1 hfound
      exact ⟨fun _ => hfield, rfl⟩
    · rintro ⟨hfield, rfl⟩
      exact ⟨_, outcome_eq_ok.2 ⟨hfield hcell, rfl⟩, rfl⟩
  · rw [if_pos hcell, if_neg hcell, Except.ok.injEq, eq_comm]
    exact (and_iff_right fun h => absurd h hcell).symm

theorem concerned_append_singleton {cell : Cell} :
    concerned (cells ++ [cell]) family workload =
      concerned cells family workload ++ if Concerns family workload cell then [cell] else [] := by
  rw [concerned, List.filter_append]
  by_cases hcell : Concerns family workload cell <;> simp [concerned, hcell]

/-- The values of an arm with one more cell of the contrast. -/
theorem index_armCells {cell : Cell} (hcell : Concerns family workload cell) (policy : String) :
    Dict.index (fun cell => fieldText cell.blockId) (fun cell =>
        (measured cell family.name).value) (armCells (cells ++ [cell]) family workload policy) =
      fileValue policy cell (measured cell family.name).value
        (Dict.index (fun cell => fieldText cell.blockId) (fun cell =>
          (measured cell family.name).value) (armCells cells family workload policy)) := by
  rw [armCells, concerned_append_singleton, if_pos hcell, List.filter_append, fileValue]
  by_cases hpolicy : cell.policy = some policy
  · have hsingle : [cell].filter (fun cell => cell.policy = some policy) = [cell] := by
      simp [hpolicy]
    rw [if_pos hpolicy, hsingle, Dict.index_append_singleton]
    rfl
  · have hnone : [cell].filter (fun cell => cell.policy = some policy) = [] := by simp [hpolicy]
    rw [if_neg hpolicy, hnone, List.append_nil]
    rfl

theorem sidesOf_append_singleton {cell : Cell} :
    sidesOf (cells ++ [cell]) family workload =
      if Concerns family workload cell then addCell family (sidesOf cells family workload) cell
      else sidesOf cells family workload := by
  split_ifs with hcell
  · rw [sidesOf, index_armCells hcell, index_armCells hcell, concerned_append_singleton,
      if_pos hcell, List.getLast?_concat]
    rfl
  · simp only [sidesOf, armCells, concerned_append_singleton, if_neg hcell, List.append_nil]

/-- **The loop over the cells**: an arm has the value of its last cell in every block, and the
contrast the metric of its last cell. -/
theorem gather_eq_ok {sides : Sides} :
    gather family workload cells = .ok sides ↔
      (∀ cell ∈ concerned cells family workload, HasField family.name cell) ∧
        sides = sidesOf cells family workload := by
  rw [gather]
  induction cells using List.reverseRecOn generalizing sides with
  | nil => simp [fold, concerned, sidesOf, armCells, Dict.index, eq_comm]
  | append_singleton cells cell ih =>
    have hfields : (∀ c ∈ concerned (cells ++ [cell]) family workload, HasField family.name c) ↔
        (∀ c ∈ concerned cells family workload, HasField family.name c) ∧
          (Concerns family workload cell → HasField family.name cell) := by
      rw [concerned_append_singleton, List.forall_mem_append]
      refine and_congr_right fun _ => ?_
      split_ifs with hcell <;> simp [hcell]
    rw [fold_append, bind_eq_ok, hfields, sidesOf_append_singleton]
    constructor
    · rintro ⟨sides', h, hlast⟩
      obtain ⟨hall, rfl⟩ := ih.1 h
      obtain ⟨_, hlast, hrest⟩ := bind_eq_ok.1 hlast
      cases hrest
      obtain ⟨hfield, rfl⟩ := gatherCell_eq_ok.1 hlast
      exact ⟨⟨hall, hfield⟩, rfl⟩
    · rintro ⟨⟨hall, hfield⟩, rfl⟩
      exact ⟨_, ih.2 ⟨hall, rfl⟩, bind_eq_ok.2 ⟨_, gatherCell_eq_ok.2 ⟨hfield, rfl⟩, rfl⟩⟩

variable (cells family workload)

/-- The value of an arm in a block. -/
def valueIn (policy block : String) : Option ℚ :=
  (lastCell cells family workload policy block).bind fun cell => (measured cell family.name).value

/-- The blocks of the two arms. -/
def armBlocks : List String :=
  ((armCells cells family workload family.controlPolicy ++
    armCells cells family workload family.treatmentPolicy).map fun cell =>
      fieldText cell.blockId).dedup

/-- Every block of the two arms has both values, and there are enough. -/
def Decided : Prop :=
  (∀ block ∈ armBlocks cells family workload,
    (valueIn cells family workload family.controlPolicy block).isSome ∧
      (valueIn cells family workload family.treatmentPolicy block).isSome) ∧
  minBlocks ≤ (armBlocks cells family workload).length

instance : Decidable (Decided cells family workload) := inferInstanceAs (Decidable (_ ∧ _))

variable {cells family workload}

theorem valueAt_index {policy block : String} :
    valueAt (Dict.index (fun cell => fieldText cell.blockId) (fun cell =>
        (measured cell family.name).value) (armCells cells family workload policy)) block =
      valueIn cells family workload policy block := by
  rw [valueAt, Dict.lookup_index_eq_getLast?, valueIn, lastCell]
  cases (Dict.share _ _ block).getLast? <;> rfl

theorem valueAt_control {block : String} :
    valueAt (sidesOf cells family workload).control block =
      valueIn cells family workload family.controlPolicy block := valueAt_index

theorem valueAt_treatment {block : String} :
    valueAt (sidesOf cells family workload).treatment block =
      valueIn cells family workload family.treatmentPolicy block := valueAt_index

theorem allBlocks_perm :
    (allBlocks (sidesOf cells family workload).control
      (sidesOf cells family workload).treatment).Perm (armBlocks cells family workload) := by
  refine (List.perm_insertionSort _ _).trans
    ((List.perm_ext_iff_of_nodup (List.nodup_dedup _) (List.nodup_dedup _)).2 fun block => ?_)
  rw [List.mem_dedup, List.mem_append, sidesOf, Dict.mem_keys_index, Dict.mem_keys_index,
    List.mem_dedup, List.map_append, List.mem_append, List.mem_map, List.mem_map]

/-- The contrast is decided in terms of its cells. -/
theorem not_incomplete_iff {maths : Maths ℚ} {paired : PairedLogRatios}
    (h : pairedLogRatios maths (sidesOf cells family workload).control
      (sidesOf cells family workload).treatment = .ok paired) :
    ¬ Incomplete paired ↔ Decided cells family workload := by
  obtain ⟨-, rfl⟩ := pairedLogRatios_eq_ok.1 h
  have husable : ∀ block, usable (sidesOf cells family workload).control
      (sidesOf cells family workload).treatment block = true ↔
      (valueIn cells family workload family.controlPolicy block).isSome ∧
        (valueIn cells family workload family.treatmentPolicy block).isSome := by
    intro block
    rw [usable, valueAt_control, valueAt_treatment, Bool.and_eq_true]
  have hmissing : (allBlocks (sidesOf cells family workload).control
      (sidesOf cells family workload).treatment).filter (fun block =>
        !usable (sidesOf cells family workload).control (sidesOf cells family workload).treatment
          block) = [] ↔ ∀ block ∈ armBlocks cells family workload,
      (valueIn cells family workload family.controlPolicy block).isSome ∧
        (valueIn cells family workload family.treatmentPolicy block).isSome := by
    rw [List.filter_eq_nil_iff]
    simp only [Bool.not_eq_true', Bool.not_eq_false, husable, allBlocks_perm.mem_iff]
  rw [Incomplete, not_or, not_not, not_lt, hmissing, Decided]
  refine and_congr_right fun hall => ?_
  have hlength : ((allBlocks (sidesOf cells family workload).control
      (sidesOf cells family workload).treatment).filterMap (logRatio maths
        (sidesOf cells family workload).control (sidesOf cells family workload).treatment)).length =
      (armBlocks cells family workload).length := by
    rw [← allBlocks_perm.length_eq, List.length_filterMap_eq_countP, List.countP_eq_length]
    intro block hblock
    rw [isSome_logRatio]
    exact (husable block).2 (hall block (allBlocks_perm.mem_iff.1 hblock))
  rw [hlength]

end Cells

/-! ### The contrasts of an analysis -/

section Contrasts

variable {maths : Maths ℚ} {phase : String} {cells : List Cell} {family : Family}
  {workload : String} {campaign : Campaign}

theorem contrastOf_eq_ok {row : Contrast}
    (h : contrastOf maths phase cells family workload = .ok row) :
    ∃ sides paired, gather family workload cells = .ok sides ∧
      pairs maths phase family sides = .ok paired ∧ row.metric = sides.metric ∧
      row.pairedBlocks = paired.pairedBlocks ∧ row.missingBlocks = paired.missingBlocks ∧
      (row.estimated = none ↔ Incomplete paired) := by
  obtain ⟨sides, hsides, h⟩ := bind_eq_ok.1 h
  obtain ⟨paired, hpaired, h⟩ := bind_eq_ok.1 h
  obtain ⟨estimated, hestimated, h⟩ := bind_eq_ok.1 h
  cases h
  refine ⟨sides, paired, hsides, hpaired, rfl, rfl, rfl, ?_⟩
  rw [estimatedOf] at hestimated
  split_ifs at hestimated with hincomplete
  · cases hestimated
    exact iff_of_true rfl hincomplete
  · obtain ⟨estimate, -, rfl⟩ := map_eq_ok.1 hestimated
    exact iff_of_false (fun h => by cases h) hincomplete

/-- An analysis has formed every planned contrast. -/
theorem exists_contrastOf {result : Analysis} (h : analyze maths campaign phase = .ok result)
    {entry : Family × String} (hentry : entry ∈ planned campaign.cells) :
    ∃ row, contrastOf maths phase campaign.cells entry.1 entry.2 = .ok row := by
  rw [analyze, valueError, ite_error_eq_ok] at h
  obtain ⟨contrasts, hcontrasts, -⟩ := bind_eq_ok.1 h.2
  exact traverse_isOk.1 ⟨contrasts, hcontrasts⟩ entry hentry

end Contrasts

end CpuLimits

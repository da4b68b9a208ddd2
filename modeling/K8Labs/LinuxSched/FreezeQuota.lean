import K8Labs.Python.Case
import K8Labs.Python.Comprehension
import K8Labs.Python.DictReader
import K8Labs.Python.Document
import K8Labs.Python.Double
import Mathlib.Data.List.Sort

/-!
# Freezing the CPU quotas

`freeze_quota.py` reads a calibration row for each workload and freezes the limits of the
confirmatory workloads, unless one of its checks has something to say.  The checks are rejections:
a ratio is refused when it is below the target or above the maximum, and a ratio that is not a number
is neither.

* `frozen_correct_iff` : **when the rows that are frozen are those that are acceptable.**
-/

namespace LinuxSched

namespace FreezeQuota

open Py

/-! ### Rows -/

/-- `CONFIRMATORY_WORKLOADS`. -/
def confirmatoryWorkloads : List String :=
  ["http", "ffmpeg", "postgres", "stress-ng", "mixed-http-ffmpeg"]

/-- `SATURATION_WORKLOADS`. -/
def saturationWorkloads : List String := ["stress-ng"]

/-- A calibration row. -/
structure Calibration where
  workload : String
  cpuLimit : String
  throttledPeriodRatio : Py.Float
  healthy : Bool
  deriving DecidableEq

/-- `_parse_bool`. -/
def parseBool (value workload : String) : Except Exc Bool :=
  let text := lower (strip value)
  if ["1", "true", "yes", "y"].contains text then .ok true
  else if ["0", "false", "no", "n"].contains text then .ok false
  else valueError (workload ++ ": invalid healthy value: " ++ quoted value)

/-- A row of the table. -/
def readRow (row : Row) : Except Exc Calibration :=
  (row.stripped "workload").bind fun workload =>
  (row.stripped "cpu_limit").bind fun cpuLimit =>
  (match row.field "throttled_period_ratio" with
    | some text => parseDouble text
    | none => typeError "float() argument must be a string or a real number, not 'NoneType'").bind
      fun ratio =>
  (match row.field "healthy" with
    | some text => parseBool text workload
    | none => .error ⟨.attributeError, "'NoneType' object has no attribute 'strip'"⟩).map
      fun healthy => ⟨workload, cpuLimit, ratio, healthy⟩

/-- `repr` of a list of strings. -/
def listText (names : List String) : String := "[" ++ ", ".intercalate (names.map quoted) ++ "]"

/-- `read_calibrations`, from the table that is read. -/
def readCalibrations (path : String) (table : Table) : Except Exc (List Calibration) :=
  let missing := ["cpu_limit", "healthy", "throttled_period_ratio", "workload"].filter
    fun name => !table.header.contains name
  if missing ≠ [] then
    valueError (path ++ ": missing required column(s): " ++ listText missing)
  else Py.traverse readRow table.rows

/-! ### Freezing -/

/-- The thresholds, `target_ratio` and `max_ratio`. -/
structure Thresholds where
  target : ℚ
  max : ℚ
  deriving DecidableEq

/-- `TARGET_THROTTLED_RATIO` and `HEALTHY_MAX_THROTTLED_RATIO`. -/
def byDefault : Thresholds := ⟨nearest (1 / 10), nearest (9 / 10)⟩

/-- `row_max`. -/
def Thresholds.rowMax (thresholds : Thresholds) (workload : String) : ℚ :=
  if saturationWorkloads.contains workload then 1 else thresholds.max

/-- The first loop: the errors of duplicates, and the first row of each workload. -/
def collect (seen : List Calibration) : List Calibration → List String × List Calibration
  | [] => ([], seen)
  | row :: rows =>
    if (seen.map Calibration.workload).contains row.workload then
      let rest := collect seen rows
      ((row.workload ++ ": duplicate calibration row") :: rest.1, rest.2)
    else collect (seen ++ [row]) rows

/-- `seen.get(workload)`. -/
def rowOf (seen : List Calibration) (workload : String) : Option Calibration :=
  seen.find? fun row => row.workload = workload

/-- The checks of a row. -/
def rowErrors (thresholds : Thresholds) (workload : String) (row : Calibration) : List String :=
  let ratio := row.throttledPeriodRatio
  let rowMax := thresholds.rowMax workload
  messageIf (row.cpuLimit = "") (workload ++ ": empty cpu_limit") ++
  messageIf (!row.healthy) (workload ++ ": workload is not healthy under " ++ row.cpuLimit) ++
  messageIf (ratio.lt (.fin thresholds.target))
    (workload ++ ": throttled_period_ratio " ++ ratio.format 4 ++ " < " ++
      formatFixed 2 thresholds.target ++ "; tighten the limit and rerun the pilot") ++
  messageIf (Py.Float.lt (.fin rowMax) ratio)
    (workload ++ ": throttled_period_ratio " ++ ratio.format 4 ++ " > " ++
      formatFixed 2 rowMax ++ "; the workload is over-throttled")

/-- The checks of a workload. -/
def workloadErrors (thresholds : Thresholds) (seen : List Calibration) (workload : String) :
    List String :=
  match rowOf seen workload with
  | none => [workload ++ ": no calibration row"]
  | some row => rowErrors thresholds workload row

/-- The workloads that are not confirmatory. -/
def unknownErrors (seen : List Calibration) : List String :=
  let unknown := (seen.map Calibration.workload).filter fun name =>
    !confirmatoryWorkloads.contains name
  messageIf (!unknown.isEmpty) ("unknown workload(s): " ++ listText (unknown.insertionSort (· ≤ ·)))

/-- A frozen quota. -/
structure Quota where
  workload : String
  cpuLimit : String
  observedThrottledPeriodRatio : Py.Float
  deriving DecidableEq

/-- The manifest. -/
structure Manifest where
  schemaVersion : ℕ
  kind : String
  targetThrottledPeriodRatio : ℚ
  maximumThrottledPeriodRatio : ℚ
  controlScheduler : String
  quotas : List Quota
  deriving DecidableEq

/-- `round(x, 6)`. -/
def roundSix : Py.Float → Py.Float
  | .fin q => toDouble (roundHalfEven (q * 10 ^ 6) / 10 ^ 6)
  | x => x

/-- The quota of a row. -/
def quotaOf (workload : String) (row : Calibration) : Quota :=
  ⟨workload, row.cpuLimit, roundSix row.throttledPeriodRatio⟩

/-- The manifest with these quotas. -/
def manifestOf (thresholds : Thresholds) (quotas : List Quota) : Manifest where
  schemaVersion := 1
  kind := "frozen-cpu-quotas"
  targetThrottledPeriodRatio := thresholds.target
  maximumThrottledPeriodRatio := thresholds.max
  controlScheduler := "eevdf"
  quotas := quotas

/-- `freeze`. -/
def freeze (thresholds : Thresholds) (calibrations : List Calibration) : Except Exc Manifest :=
  let (duplicates, seen) := collect [] calibrations
  let errors := duplicates ++ confirmatoryWorkloads.flatMap (workloadErrors thresholds seen) ++
    unknownErrors seen
  if errors ≠ [] then valueError ("; ".intercalate errors)
  else
    (Py.traverse (fun workload =>
      match rowOf seen workload with
      | some row => .ok (quotaOf workload row)
      | none => .error ⟨.keyError, workload⟩) confirmatoryWorkloads).map (manifestOf thresholds)

/-! ### The law -/

/-- A row is fit to be frozen, but for its ratio. -/
def Healthy (row : Calibration) : Prop := row.healthy = true ∧ row.cpuLimit ≠ ""

/-- The ratio is a number between the thresholds. -/
def InRange (thresholds : Thresholds) (workload : String) (ratio : Py.Float) : Prop :=
  ∃ q, ratio = .fin q ∧ thresholds.target ≤ q ∧ q ≤ thresholds.rowMax workload

/-- There is one row for every confirmatory workload, which passes, and no other row. -/
def Covered (passes : String → Calibration → Prop) (rows : List Calibration) : Prop :=
  (∀ workload ∈ confirmatoryWorkloads, ∃ row,
    (rows.filter fun row => row.workload = workload) = [row] ∧ passes workload row) ∧
  ∀ row ∈ rows, row.workload ∈ confirmatoryWorkloads

/-- The rows can be frozen. -/
def Acceptable (thresholds : Thresholds) (rows : List Calibration) : Prop :=
  Covered (fun workload row =>
    Healthy row ∧ InRange thresholds workload row.throttledPeriodRatio) rows

/-- The rows can be frozen but for ratios that are not a number. -/
def AlmostAcceptable (thresholds : Thresholds) (rows : List Calibration) : Prop :=
  Covered (fun workload row => Healthy row ∧ (row.throttledPeriodRatio = .nan ∨
    InRange thresholds workload row.throttledPeriodRatio)) rows

/-- The rows that are frozen are those that can be, with their limits, in any order. -/
structure Correct (thresholds : Thresholds) (rows : List Calibration) : Prop where
  accepts : (∃ manifest, freeze thresholds rows = .ok manifest) ↔ Acceptable thresholds rows
  limits : ∀ manifest, freeze thresholds rows = .ok manifest →
    manifest.quotas.map Quota.workload = confirmatoryWorkloads ∧
      ∀ quota ∈ manifest.quotas, ∃ row,
        (rows.filter fun row => row.workload = quota.workload) = [row] ∧
          quota.cpuLimit = row.cpuLimit
  order : ∀ manifest, freeze thresholds rows = .ok manifest →
    ∀ rows' : List Calibration, rows'.Perm rows → freeze thresholds rows' = .ok manifest

section Law

variable {thresholds : Thresholds} {workload : String} {row : Calibration}
  {rows rows' seen : List Calibration} {manifest : Manifest}
  {passes passes' : String → Calibration → Prop}

/-- The first loop has no errors when no workload occurs twice, and then keeps all rows. -/
theorem collect_eq_nil_iff : (collect seen rows).1 = [] ↔
    (rows.map Calibration.workload).Nodup ∧
      ∀ row ∈ rows, row.workload ∉ seen.map Calibration.workload := by
  induction rows generalizing seen with
  | nil => simp [collect]
  | cons row rows ih =>
    rw [collect, List.map_cons, List.nodup_cons, List.forall_mem_cons]
    by_cases hseen : row.workload ∈ seen.map Calibration.workload
    · rw [if_pos (List.contains_iff_mem.2 hseen)]
      exact iff_of_false (List.cons_ne_nil _ _) fun h => h.2.1 hseen
    · rw [if_neg fun h => hseen (List.contains_iff_mem.1 h), ih]
      simp only [List.map_append, List.map_singleton, List.mem_append, List.mem_singleton,
        not_or]
      constructor
      · rintro ⟨hnodup, hfresh⟩
        refine ⟨⟨fun hmem => ?_, hnodup⟩, hseen, fun other hother => (hfresh other hother).1⟩
        obtain ⟨other, hother, heq⟩ := List.mem_map.1 hmem
        exact (hfresh other hother).2 heq
      · rintro ⟨⟨hnot, hnodup⟩, -, hfresh⟩
        exact ⟨hnodup, fun other hother =>
          ⟨hfresh other hother, fun heq => hnot (heq ▸ List.mem_map_of_mem hother)⟩⟩

theorem collect_snd (h : (collect seen rows).1 = []) : (collect seen rows).2 = seen ++ rows := by
  induction rows generalizing seen with
  | nil => simp [collect]
  | cons row rows ih =>
    rw [collect] at h ⊢
    by_cases hseen : (seen.map Calibration.workload).contains row.workload = true
    · rw [if_pos hseen] at h
      cases h
    · rw [if_neg hseen] at h ⊢
      rw [ih h, List.append_assoc, List.singleton_append]

/-- A ratio that neither comparison refuses is not a number, or in the range. -/
theorem not_refused_iff {ratio : Py.Float} : ratio.lt (.fin thresholds.target) = false ∧
      Py.Float.lt (.fin (thresholds.rowMax workload)) ratio = false ↔
    ratio = .nan ∨ InRange thresholds workload ratio := by
  cases ratio with
  | fin q => simp [InRange, Py.Float.lt]
  | inf => simp [InRange, Py.Float.lt]
  | negInf => simp [InRange, Py.Float.lt]
  | nan => simp [Py.Float.lt]

theorem messageIf_eq_nil {wrong : Bool} {message : String} :
    messageIf wrong message = [] ↔ wrong = false := by
  cases wrong <;> simp [messageIf]

/-- **The checks of a row** leave out ratios that are not a number. -/
theorem rowErrors_eq_nil_iff : rowErrors thresholds workload row = [] ↔ Healthy row ∧
    (row.throttledPeriodRatio = .nan ∨
      InRange thresholds workload row.throttledPeriodRatio) := by
  rw [← not_refused_iff]
  simp only [rowErrors, List.append_eq_nil_iff, messageIf_eq_nil, Healthy, Bool.not_eq_eq_eq_not,
    Bool.not_false, decide_eq_false_iff_not]
  tauto

/-- The row of a workload is the first of those with its name. -/
theorem rowOf_eq_head : rowOf rows workload =
    (rows.filter fun row => row.workload = workload).head? := List.head?_filter.symm

theorem length_filter_eq_count : (rows.filter fun row => row.workload = workload).length =
    (rows.map Calibration.workload).count workload := by
  rw [List.count_eq_countP, List.countP_map, List.countP_eq_length_filter]
  rfl

/-- Rows that cover the confirmatory workloads, by the loops of the program. -/
theorem covered_iff : Covered passes rows ↔ (rows.map Calibration.workload).Nodup ∧
    (∀ workload ∈ confirmatoryWorkloads, ∃ row,
      rowOf rows workload = some row ∧ passes workload row) ∧
    ∀ row ∈ rows, row.workload ∈ confirmatoryWorkloads := by
  constructor
  · rintro ⟨hone, hknown⟩
    refine ⟨List.nodup_iff_count_le_one.2 fun name => ?_, fun workload hworkload => ?_, hknown⟩
    -- a confirmatory workload has one row, and no other name has any
    · by_cases hname : name ∈ confirmatoryWorkloads
      · obtain ⟨row, hfilter, -⟩ := hone name hname
        rw [← length_filter_eq_count, hfilter, List.length_singleton]
      · rw [List.count_eq_zero_of_not_mem fun hmem => ?_]
        · exact Nat.zero_le 1
        · obtain ⟨row, hrow, rfl⟩ := List.mem_map.1 hmem
          exact hname (hknown row hrow)
    · obtain ⟨row, hfilter, hpasses⟩ := hone workload hworkload
      exact ⟨row, by rw [rowOf_eq_head, hfilter, List.head?_cons], hpasses⟩
  · rintro ⟨hnodup, hone, hknown⟩
    refine ⟨fun workload hworkload => ?_, hknown⟩
    obtain ⟨row, hrow, hpasses⟩ := hone workload hworkload
    refine ⟨row, ?_, hpasses⟩
    rw [rowOf_eq_head, List.head?_eq_some_iff] at hrow
    obtain ⟨others, hothers⟩ := hrow
    have hle := List.nodup_iff_count_le_one.1 hnodup workload
    rw [← length_filter_eq_count, hothers, List.length_cons] at hle
    rw [hothers, List.length_eq_zero_iff.1 (show others.length = 0 by omega)]

theorem Covered.imp (h : Covered passes rows)
    (himp : ∀ workload, ∀ row ∈ rows, row.workload = workload → passes workload row →
      passes' workload row) : Covered passes' rows := by
  refine ⟨fun workload hworkload => ?_, h.2⟩
  obtain ⟨row, hfilter, hpasses⟩ := h.1 workload hworkload
  have hmem : row ∈ rows.filter fun row => row.workload = workload :=
    hfilter ▸ List.mem_singleton_self row
  obtain ⟨hrow, hname⟩ := List.mem_filter.1 hmem
  exact ⟨row, hfilter, himp workload row hrow (of_decide_eq_true hname) hpasses⟩

/-- Every row that covers a workload passes. -/
theorem Covered.passes_of_mem (h : Covered passes rows) (hrow : row ∈ rows) :
    passes row.workload row := by
  obtain ⟨other, hfilter, hpasses⟩ := h.1 row.workload (h.2 row hrow)
  have hmem : row ∈ rows.filter fun other => other.workload = row.workload :=
    List.mem_filter.2 ⟨hrow, decide_eq_true rfl⟩
  rw [hfilter, List.mem_singleton] at hmem
  rw [hmem] at hpasses ⊢
  exact hpasses

/-- The quotas of rows that cover the workloads. -/
def quotas (rows : List Calibration) : List Quota :=
  confirmatoryWorkloads.filterMap fun workload => (rowOf rows workload).map (quotaOf workload)

theorem unknownErrors_eq_nil_iff :
    unknownErrors rows = [] ↔ ∀ row ∈ rows, row.workload ∈ confirmatoryWorkloads := by
  simp [unknownErrors]

theorem workloadErrors_eq_nil_iff : workloadErrors thresholds rows workload = [] ↔
    ∃ row, rowOf rows workload = some row ∧ Healthy row ∧
      (row.throttledPeriodRatio = .nan ∨
        InRange thresholds workload row.throttledPeriodRatio) := by
  rw [workloadErrors]
  cases rowOf rows workload with
  | none => simp
  | some row => simp [rowErrors_eq_nil_iff]

/-- The errors are none when the rows are acceptable but for ratios that are not a number. -/
theorem errors_eq_nil_iff : (collect [] rows).1 ++
      confirmatoryWorkloads.flatMap (workloadErrors thresholds (collect [] rows).2) ++
        unknownErrors (collect [] rows).2 = [] ↔ AlmostAcceptable thresholds rows := by
  rw [AlmostAcceptable, covered_iff, List.append_assoc, List.append_eq_nil_iff,
    List.append_eq_nil_iff, List.flatMap_eq_nil_iff]
  have hcollect : (collect [] rows).1 = [] ↔ (rows.map Calibration.workload).Nodup := by
    simp [collect_eq_nil_iff]
  rw [← hcollect]
  refine and_congr_right fun h => ?_
  rw [collect_snd h, List.nil_append, unknownErrors_eq_nil_iff]
  simp only [workloadErrors_eq_nil_iff]

/-- The quotas of workloads that have rows. -/
theorem traverse_quotas {workloads : List String}
    (h : ∀ workload ∈ workloads, ∃ row, rowOf rows workload = some row) :
    Py.traverse (fun workload =>
        match rowOf rows workload with
        | some row => .ok (quotaOf workload row)
        | none => .error ⟨.keyError, workload⟩) workloads =
      (.ok (workloads.filterMap fun workload => (rowOf rows workload).map (quotaOf workload)) :
        Except Exc (List Quota)) := by
  induction workloads with
  | nil => rfl
  | cons workload workloads ih =>
    rw [List.forall_mem_cons] at h
    obtain ⟨⟨row, hrow⟩, hrest⟩ := h
    simp only [Py.traverse, hrow, Except.bind, ih hrest, List.filterMap_cons, Option.map_some]

theorem workload_quotas {workloads : List String}
    (h : ∀ workload ∈ workloads, ∃ row, rowOf rows workload = some row) :
    (workloads.filterMap fun workload => (rowOf rows workload).map (quotaOf workload)).map
      Quota.workload = workloads := by
  induction workloads with
  | nil => rfl
  | cons workload workloads ih =>
    rw [List.forall_mem_cons] at h
    obtain ⟨⟨row, hrow⟩, hrest⟩ := h
    simp only [hrow, List.filterMap_cons, Option.map_some, List.map_cons, ih hrest, quotaOf]

/-- **What is frozen**: rows that are acceptable but for ratios that are not a number. -/
theorem freeze_eq_ok : freeze thresholds rows = .ok manifest ↔
    AlmostAcceptable thresholds rows ∧ manifest = manifestOf thresholds (quotas rows) := by
  have hquotas : AlmostAcceptable thresholds rows →
      Py.traverse (fun workload =>
        match rowOf (collect [] rows).2 workload with
        | some row => .ok (quotaOf workload row)
        | none => .error ⟨.keyError, workload⟩) confirmatoryWorkloads =
      (.ok (quotas rows) : Except Exc (List Quota)) := by
    intro h
    obtain ⟨hnodup, hrows, -⟩ := covered_iff.1 h
    have hcollect : (collect [] rows).1 = [] := collect_eq_nil_iff.2 ⟨hnodup, by simp⟩
    rw [collect_snd hcollect, List.nil_append]
    exact traverse_quotas fun workload hworkload =>
      (hrows workload hworkload).imp fun _ hrow => hrow.1
  rw [freeze]
  dsimp only
  by_cases h : AlmostAcceptable thresholds rows
  · rw [if_neg (not_not_intro (errors_eq_nil_iff.2 h)), hquotas h, Except.map, Except.ok.injEq,
      eq_comm]
    exact (and_iff_right h).symm
  · rw [if_pos fun hnil => h (errors_eq_nil_iff.1 hnil)]
    exact iff_of_false (fun heq => by cases heq) fun heq => h heq.1

theorem Acceptable.almost (h : Acceptable thresholds rows) : AlmostAcceptable thresholds rows :=
  Covered.imp h fun _ _ _ _ hpasses => ⟨hpasses.1, .inr hpasses.2⟩

/-- Rows with ratios that are numbers are acceptable when they almost are. -/
theorem AlmostAcceptable.acceptable_iff (h : AlmostAcceptable thresholds rows) :
    Acceptable thresholds rows ↔ ∀ row ∈ rows, row.throttledPeriodRatio ≠ .nan := by
  constructor
  · intro hacceptable row hrow hnan
    obtain ⟨-, q, hq, -⟩ := Covered.passes_of_mem hacceptable hrow
    rw [hnan] at hq
    cases hq
  · exact fun hnumbers => Covered.imp h fun workload row hrow _ hpasses =>
      ⟨hpasses.1, hpasses.2.resolve_left (hnumbers row hrow)⟩

theorem Covered.perm (h : Covered passes rows) (hperm : rows'.Perm rows) :
    Covered passes rows' ∧ ∀ workload ∈ confirmatoryWorkloads,
      rowOf rows' workload = rowOf rows workload := by
  have hfilter : ∀ workload ∈ confirmatoryWorkloads,
      (rows'.filter fun row => row.workload = workload) =
        rows.filter fun row => row.workload = workload := by
    intro workload hworkload
    obtain ⟨row, hrow, -⟩ := h.1 workload hworkload
    rw [hrow]
    exact List.perm_singleton.1 (hrow ▸ hperm.filter _)
  refine ⟨⟨fun workload hworkload => ?_, fun row hrow => h.2 row (hperm.mem_iff.1 hrow)⟩,
    fun workload hworkload => ?_⟩
  · rw [hfilter workload hworkload]
    exact h.1 workload hworkload
  · rw [rowOf_eq_head, rowOf_eq_head, hfilter workload hworkload]

/-- **When the rows that are frozen are those that can be**: no ratio is other than a number while
all else is in order. -/
theorem frozen_correct_iff (thresholds : Thresholds) (rows : List Calibration) :
    Correct thresholds rows ↔
      ¬(AlmostAcceptable thresholds rows ∧ ∃ row ∈ rows, row.throttledPeriodRatio = .nan) := by
  have hfrozen : (∃ manifest, freeze thresholds rows = .ok manifest) ↔
      AlmostAcceptable thresholds rows :=
    ⟨fun ⟨manifest, h⟩ => (freeze_eq_ok.1 h).1, fun h => ⟨_, freeze_eq_ok.2 ⟨h, rfl⟩⟩⟩
  -- the comparisons let a ratio that is no number pass, and nothing else asks for it
  have haccepts : ((∃ manifest, freeze thresholds rows = .ok manifest) ↔
      Acceptable thresholds rows) ↔ ¬(AlmostAcceptable thresholds rows ∧
        ∃ row ∈ rows, row.throttledPeriodRatio = .nan) := by
    rw [hfrozen]
    constructor
    · rintro hiff ⟨halmost, row, hrow, hnan⟩
      exact halmost.acceptable_iff.1 (hiff.1 halmost) row hrow hnan
    · intro hnone
      refine ⟨fun halmost => halmost.acceptable_iff.2 fun row hrow hnan => ?_,
        Acceptable.almost⟩
      exact hnone ⟨halmost, row, hrow, hnan⟩
  constructor
  · exact fun h => haccepts.1 h.accepts
  · intro hnone
    refine ⟨haccepts.2 hnone, fun manifest hmanifest => ?_, fun manifest hmanifest rows' hperm => ?_⟩
    · obtain ⟨halmost, rfl⟩ := freeze_eq_ok.1 hmanifest
      have hrows := (covered_iff.1 halmost).2.1
      refine ⟨workload_quotas fun workload hworkload =>
        (hrows workload hworkload).imp fun _ hrow => hrow.1, fun quota hquota => ?_⟩
      obtain ⟨workload, hworkload, hrow⟩ := List.mem_filterMap.1 hquota
      obtain ⟨row, hfirst, rfl⟩ := Option.map_eq_some_iff.1 hrow
      obtain ⟨other, hfilter, -⟩ := halmost.1 workload hworkload
      rw [rowOf_eq_head, hfilter, List.head?_cons, Option.some.injEq] at hfirst
      exact ⟨other, hfilter, hfirst ▸ rfl⟩
    · obtain ⟨halmost, rfl⟩ := freeze_eq_ok.1 hmanifest
      obtain ⟨halmost', hrows⟩ := Covered.perm halmost hperm
      refine freeze_eq_ok.2 ⟨halmost', congrArg _ ?_⟩
      exact List.filterMap_congr fun workload hworkload => by rw [hrows workload hworkload]

/-- A table of calibrations in which the ratio of `http` is not a number. -/
def nanTable : Table where
  header := ["workload", "cpu_limit", "throttled_period_ratio", "healthy"]
  records := [["http", "750m", "nan", "true"], ["ffmpeg", "2", "0.25", "true"],
    ["postgres", "1500m", "0.25", "yes"], ["stress-ng", "1", "0.25", "1"],
    ["mixed-http-ffmpeg", "1750m", "0.25", "true"]]

/-- The rows that are read of it. -/
def nanRows : List Calibration :=
  [⟨"http", "750m", .nan, true⟩, ⟨"ffmpeg", "2", .fin (1 / 4), true⟩,
    ⟨"postgres", "1500m", .fin (1 / 4), true⟩, ⟨"stress-ng", "1", .fin (1 / 4), true⟩,
    ⟨"mixed-http-ffmpeg", "1750m", .fin (1 / 4), true⟩]

/-- They are frozen, although they are not acceptable. -/
theorem nan_frozen : readCalibrations "calibrations.csv" nanTable = .ok nanRows ∧
    ¬Correct byDefault nanRows := by
  refine ⟨by decide +kernel, fun h => ?_⟩
  have hrange : ∀ workload, InRange byDefault workload (.fin (1 / 4)) := by
    intro workload
    refine ⟨1 / 4, rfl, by decide +kernel, ?_⟩
    rw [Thresholds.rowMax]
    split_ifs
    · norm_num
    · decide +kernel
  have halmost : AlmostAcceptable byDefault nanRows := by
    refine covered_iff.2 ⟨by decide, ?_, by decide⟩
    simp only [confirmatoryWorkloads, List.forall_mem_cons]
    refine ⟨⟨_, rfl, ⟨rfl, by decide⟩, .inl rfl⟩,
      ⟨_, rfl, ⟨rfl, by decide⟩, .inr (hrange _)⟩,
      ⟨_, rfl, ⟨rfl, by decide⟩, .inr (hrange _)⟩,
      ⟨_, rfl, ⟨rfl, by decide⟩, .inr (hrange _)⟩,
      ⟨_, rfl, ⟨rfl, by decide⟩, .inr (hrange _)⟩, fun _ hnil => absurd hnil List.not_mem_nil⟩
  have hacceptable := h.accepts.1 ⟨_, freeze_eq_ok.2 ⟨halmost, rfl⟩⟩
  exact halmost.acceptable_iff.1 hacceptable _ List.mem_cons_self rfl

end Law

end FreezeQuota

end LinuxSched

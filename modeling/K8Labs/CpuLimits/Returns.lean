import K8Labs.CpuLimits.OneMetric

/-!
# When the confirmatory analysis returns

`analyze` refuses a value that is not positive in a pair that is complete, and a family with more
decided contrasts than planned; what is missing makes a contrast incomplete.

* `contrastOf_eq_ok_iff`: the contrast of a family and a workload.
* `exists_fold_correct_iff`: the step-downs of the families do not disturb each other.
* `analyze_eq_error`: a value that is not positive is refused by the first contrast that it is in.
* `analyze_returns`: **a confirmatory analysis returns only if the complete pairs are positive, the
  families fit and the estimates can be computed, and whenever moreover the intervals are positive.
  A contrast is incomplete exactly when a value of a pair is missing or too few pairs are left.**
-/

namespace CpuLimits

open Py

/-! ### The contrasts -/

section Contrasts

variable (maths : Maths ℚ) (cells : List Cell) (family : Family) (workload : String)

/-- The pairs of the two arms. -/
def pairedOf : PairedLogRatios :=
  let control := (sidesOf cells family workload).control
  let treatment := (sidesOf cells family workload).treatment
  { logRatios := (allBlocks control treatment).filterMap (logRatio maths control treatment)
    pairedBlocks := (allBlocks control treatment).filter (usable control treatment)
    missingBlocks := (allBlocks control treatment).filter fun block =>
      !usable control treatment block }

/-- The log ratios that the interval of a contrast is over. -/
def logsOf : List ℚ :=
  oriented (sidesOf cells family workload) (pairedOf maths cells family workload)

/-- The values of the complete pairs are positive. -/
def Positive : Prop :=
  ∀ block control treatment,
    valueIn cells family workload family.controlPolicy block = some control →
    valueIn cells family workload family.treatmentPolicy block = some treatment →
    0 < control ∧ 0 < treatment

variable {maths cells family workload} {row : Contrast}

theorem pairs_confirmatory_eq_ok {paired : PairedLogRatios} :
    pairs maths "confirmatory" family (sidesOf cells family workload) = .ok paired ↔
      Positive cells family workload ∧ paired = pairedOf maths cells family workload := by
  rw [pairs, if_neg fun hand => absurd hand.1 (by decide), pairedLogRatios_eq_ok, PositivePairs]
  simp only [valueAt_control, valueAt_treatment]
  rfl

theorem not_incomplete_pairedOf (h : Positive cells family workload) :
    ¬ Incomplete (pairedOf maths cells family workload) ↔ Decided cells family workload := by
  have hpositive : PositivePairs (sidesOf cells family workload).control
      (sidesOf cells family workload).treatment := by
    intro block control treatment hcontrol htreatment
    rw [valueAt_control] at hcontrol
    rw [valueAt_treatment] at htreatment
    exact h block control treatment hcontrol htreatment
  exact @not_incomplete_iff cells family workload maths _
    (pairedLogRatios_eq_ok.2 ⟨hpositive, rfl⟩)

/-- The estimate of a contrast, none when it is not decided. -/
def Estimated (maths : Maths ℚ) (cells : List Cell) (family : Family) (workload : String)
    (estimated : Option Estimate) : Prop :=
  if Decided cells family workload then
    ∃ estimate, estimateOf maths "confirmatory" (logsOf maths cells family workload) =
      .ok estimate ∧ estimated = some estimate
  else estimated = none

theorem estimatedOf_eq_ok (h : Positive cells family workload) {estimated : Option Estimate} :
    estimatedOf maths "confirmatory" (sidesOf cells family workload)
      (pairedOf maths cells family workload) = .ok estimated ↔
      Estimated maths cells family workload estimated := by
  rw [estimatedOf, Estimated]
  by_cases hdecided : Decided cells family workload
  · rw [if_neg ((not_incomplete_pairedOf h).2 hdecided), if_pos hdecided, map_eq_ok]
    simp only [eq_comm (a := estimated)]
    rfl
  · rw [if_pos (not_not.1 (mt (not_incomplete_pairedOf h).1 hdecided)), if_neg hdecided,
      Except.ok.injEq, eq_comm]

/-- **A contrast is formed** when its cells have the field, its complete pairs are positive and its
estimate, if it is decided, can be computed. -/
theorem contrastOf_eq_ok_iff :
    contrastOf maths "confirmatory" cells family workload = .ok row ↔
      (∀ cell ∈ concerned cells family workload, HasField family.name cell) ∧
      Positive cells family workload ∧
      ∃ estimated, Estimated maths cells family workload estimated ∧ row =
        { family := family.name
          workload := workload
          metric := (sidesOf cells family workload).metric
          control := family.controlPolicy
          treatment := family.treatmentPolicy
          condition := family.condition
          margin := family.margin
          plannedFamilySize := family.plannedSize
          pairedBlocks := (pairedOf maths cells family workload).pairedBlocks
          missingBlocks := (pairedOf maths cells family workload).missingBlocks
          estimated := estimated } := by
  constructor
  · intro h
    obtain ⟨sides, hsides, h⟩ := bind_eq_ok.1 h
    obtain ⟨hfields, rfl⟩ := gather_eq_ok.1 hsides
    obtain ⟨paired, hpaired, h⟩ := bind_eq_ok.1 h
    obtain ⟨hpositive, rfl⟩ := pairs_confirmatory_eq_ok.1 hpaired
    obtain ⟨estimated, hestimated, h⟩ := bind_eq_ok.1 h
    cases h
    exact ⟨hfields, hpositive, estimated, (estimatedOf_eq_ok hpositive).1 hestimated, rfl⟩
  · rintro ⟨hfields, hpositive, estimated, hestimated, rfl⟩
    refine bind_eq_ok.2 ⟨_, gather_eq_ok.2 ⟨hfields, rfl⟩, ?_⟩
    refine bind_eq_ok.2 ⟨_, pairs_confirmatory_eq_ok.2 ⟨hpositive, rfl⟩, ?_⟩
    exact bind_eq_ok.2 ⟨_, (estimatedOf_eq_ok hpositive).2 hestimated, rfl⟩

end Contrasts

/-! ### The step-downs -/

section Families

variable {maths : Maths ℚ} {family : Family} {rows rows' : List Contrast}
  {corrections : List HolmDecision}

/-- The corrections of a family and its decisions can be computed. -/
def Corrects (maths : Maths ℚ) (family : Family) (estimates : List Estimate) : Prop :=
  ∃ corrections, holmDecisions (estimates.map fun estimate => .fin estimate.pValue)
      family.plannedSize (1 / 20) = .ok corrections ∧
    ∀ pair ∈ estimates.zip corrections, ∃ settled,
      settle maths family.margin pair.1 pair.2 = .ok settled

/-- What the corrections of a family leave as it is. -/
structure Settled (family : Family) (rows rows' : List Contrast) : Prop where
  others : ∀ other : Family, other.name ≠ family.name → eligible other rows' = eligible other rows
  names : rows'.map (fun row => (row.family, row.workload, row.estimated.isNone)) =
    rows.map fun row => (row.family, row.workload, row.estimated.isNone)

theorem Settled.refl (rows : List Contrast) : Settled family rows rows :=
  ⟨fun _ _ => rfl, rfl⟩

theorem Settled.cons {row row' : Contrast} (h : Settled family rows rows')
    (hother : ∀ other : Family, other.name ≠ family.name →
      estimateIn other row' = estimateIn other row)
    (hname : (row'.family, row'.workload, row'.estimated.isNone) =
      (row.family, row.workload, row.estimated.isNone)) :
    Settled family (row :: rows) (row' :: rows') where
  others other hne := by
    have hrest := h.others other hne
    rw [eligible] at hrest ⊢
    rw [List.filterMap_cons, hother other hne, hrest, eligible, eligible, List.filterMap_cons]
  names := by rw [List.map_cons, List.map_cons, h.names, hname]

theorem settled_of_settleAll (h : settleAll maths family corrections rows = .ok rows') :
    Settled family rows rows' := by
  induction rows generalizing corrections rows' with
  | nil =>
    rw [settleAll] at h
    cases h
    exact .refl []
  | cons row rows ih =>
    rcases corrections with _ | ⟨correction, corrections⟩
    · rw [settleAll] at h
      cases h
      exact .refl _
    rw [settleAll] at h
    rcases hestimate : estimateIn family row with _ | estimate
    · rw [hestimate] at h
      obtain ⟨rest, hrest, rfl⟩ := map_eq_ok.1 h
      exact (ih hrest).cons (fun _ _ => rfl) rfl
    · rw [hestimate] at h
      obtain ⟨settled, -, h⟩ := bind_eq_ok.1 h
      obtain ⟨rest, hrest, rfl⟩ := map_eq_ok.1 h
      rw [estimateIn] at hestimate
      split_ifs at hestimate with hfamily
      refine (ih hrest).cons (fun other hother => ?_) (by rw [hestimate]; rfl)
      have hne : row.family ≠ other.name := fun heq => hother (heq.symm.trans hfamily)
      rw [estimateIn, estimateIn, if_neg hne, if_neg hne]

/-- The rows of a family take the corrections in turn. -/
theorem exists_settleAll_iff :
    (∃ rows', settleAll maths family corrections rows = .ok rows') ↔
      ∀ pair ∈ (eligible family rows).zip corrections, ∃ settled,
        settle maths family.margin pair.1 pair.2 = .ok settled := by
  induction rows generalizing corrections with
  | nil => simp [settleAll, eligible]
  | cons row rows ih =>
    rcases corrections with _ | ⟨correction, corrections⟩
    · simp [settleAll]
    rw [settleAll, eligible, List.filterMap_cons]
    rcases hestimate : estimateIn family row with _ | estimate
    · refine Iff.trans ?_ ih
      simp only [map_eq_ok]
      exact ⟨fun ⟨_, rest, hrest, _⟩ => ⟨rest, hrest⟩, fun ⟨rest, hrest⟩ => ⟨_, rest, hrest, rfl⟩⟩
    · rw [List.zip_cons_cons, List.forall_mem_cons]
      refine Iff.trans ?_ (and_congr_right fun _ => ih)
      simp only [bind_eq_ok, map_eq_ok]
      constructor
      · rintro ⟨_, settled, hsettled, rest, hrest, -⟩
        exact ⟨⟨settled, hsettled⟩, rest, hrest⟩
      · rintro ⟨⟨settled, hsettled⟩, rest, hrest⟩
        exact ⟨_, settled, hsettled, rest, hrest, rfl⟩

theorem exists_correct_iff :
    (∃ rows', correct maths rows family = .ok rows') ↔
      Corrects maths family (eligible family rows) := by
  simp only [correct, bind_eq_ok]
  constructor
  · rintro ⟨rows', corrections, hcorrections, h⟩
    exact ⟨corrections, hcorrections, exists_settleAll_iff.1 ⟨rows', h⟩⟩
  · rintro ⟨corrections, hcorrections, h⟩
    obtain ⟨rows', h⟩ := exists_settleAll_iff.2 h
    exact ⟨rows', corrections, hcorrections, h⟩

theorem settled_of_correct (h : correct maths rows family = .ok rows') :
    Settled family rows rows' := by
  obtain ⟨corrections, -, h⟩ := bind_eq_ok.1 h
  exact settled_of_settleAll h

/-- **The step-downs of different families** do not disturb each other. -/
theorem exists_fold_correct_iff {families : List Family}
    (hnames : (families.map Family.name).Nodup) :
    (∃ rows', fold (correct maths) rows families = .ok rows') ↔
      ∀ family ∈ families, Corrects maths family (eligible family rows) := by
  induction families generalizing rows with
  | nil => simp [fold]
  | cons family families ih =>
    rw [List.map_cons, List.nodup_cons] at hnames
    have hrest : ∀ {rows'}, correct maths rows family = .ok rows' →
        ((∃ rows'', fold (correct maths) rows' families = .ok rows'') ↔
          ∀ other ∈ families, Corrects maths other (eligible other rows)) := by
      intro rows' h
      rw [ih hnames.2]
      refine forall_congr' fun other => forall_congr' fun hother => ?_
      have hne : other.name ≠ family.name := fun heq =>
        hnames.1 (heq ▸ List.mem_map_of_mem hother)
      rw [(settled_of_correct h).others other hne]
    rw [List.forall_mem_cons, ← exists_correct_iff]
    simp only [fold, bind_eq_ok]
    constructor
    · rintro ⟨rows'', rows', h, hfold⟩
      exact ⟨⟨rows', h⟩, (hrest h).1 ⟨rows'', hfold⟩⟩
    · rintro ⟨⟨rows', h⟩, hothers⟩
      obtain ⟨rows'', hfold⟩ := (hrest h).2 hothers
      exact ⟨rows'', rows', h, hfold⟩

theorem settled_names_of_fold {families : List Family}
    (h : fold (correct maths) rows families = .ok rows') :
    rows'.map (fun row => (row.family, row.workload, row.estimated.isNone)) =
      rows.map fun row => (row.family, row.workload, row.estimated.isNone) :=
  fold_invariant (P := fun rows' =>
      rows'.map (fun row => (row.family, row.workload, row.estimated.isNone)) =
        rows.map fun row => (row.family, row.workload, row.estimated.isNone))
    (fun _ _ _ hrows hstep => (settled_of_correct hstep).names.trans hrows) rfl h

end Families

/-! ### The analysis -/

section Returns

variable (maths : Maths ℚ) (cells : List Cell)

/-- No family has more decided contrasts than planned. -/
def Fits : Prop :=
  ∀ family ∈ families, (planned cells).countP (fun entry =>
    entry.1.name = family.name ∧ Decided cells entry.1 entry.2) ≤ family.plannedSize

/-- The complete pairs of every contrast are positive. -/
def AllPositive : Prop := ∀ entry ∈ planned cells, Positive cells entry.1 entry.2

/-- The estimate of every decided contrast can be computed, and has some property. -/
def Estimable (property : Estimate → Prop) : Prop :=
  ∀ entry ∈ planned cells, Decided cells entry.1 entry.2 → ∃ estimate,
    estimateOf maths "confirmatory" (logsOf maths cells entry.1 entry.2) = .ok estimate ∧
      0 ≤ estimate.pValue ∧ property estimate

variable {maths cells} {campaign : Campaign} {contrasts : List Contrast} {family : Family}

theorem pValue_le_one {logs : List ℚ} {p : ℚ} (h : pValue maths logs = .ok p) : p ≤ 1 := by
  rw [pValue] at h
  dsimp only at h
  split_ifs at h
  · cases h
    exact le_rfl
  · cases h
    exact zero_le_one
  · cases h
    exact le_rfl
  · obtain ⟨cdf, -, rfl⟩ := map_eq_ok.1 h
    exact min_le_left _ _

theorem pValue_estimateOf_le_one {logs : List ℚ} {estimate : Estimate}
    (h : estimateOf maths "confirmatory" logs = .ok estimate) : estimate.pValue ≤ 1 := by
  obtain ⟨_, -, h⟩ := bind_eq_ok.1 h
  obtain ⟨p, hp, h⟩ := bind_eq_ok.1 h
  cases h
  exact pValue_le_one hp

/-- A decision needs the logarithms of the interval at most. -/
theorem exists_settle {margin : ℚ} {estimate : Estimate} {correction : HolmDecision}
    (hlow : 0 < estimate.ciLow) (hhigh : 0 < estimate.ciHigh) :
    ∃ settled, settle maths margin estimate correction = .ok settled := by
  rw [settle]
  simp only [Maths.logOf, if_neg (not_le.2 hlow), if_neg (not_le.2 hhigh), Except.bind, Except.map]
  split_ifs <;> exact ⟨_, rfl⟩

theorem exists_contrastOf_iff {entry : Family × String} :
    (∃ row, contrastOf maths "confirmatory" cells entry.1 entry.2 = .ok row) ↔
      (∀ cell ∈ concerned cells entry.1 entry.2, HasField entry.1.name cell) ∧
      Positive cells entry.1 entry.2 ∧
      (Decided cells entry.1 entry.2 → ∃ estimate,
        estimateOf maths "confirmatory" (logsOf maths cells entry.1 entry.2) = .ok estimate) := by
  simp only [contrastOf_eq_ok_iff, Estimated]
  constructor
  · rintro ⟨row, hfields, hpositive, estimated, hestimated, -⟩
    refine ⟨hfields, hpositive, fun hdecided => ?_⟩
    rw [if_pos hdecided] at hestimated
    obtain ⟨estimate, hestimate, -⟩ := hestimated
    exact ⟨estimate, hestimate⟩
  · rintro ⟨hfields, hpositive, hestimate⟩
    by_cases hdecided : Decided cells entry.1 entry.2
    · obtain ⟨estimate, hestimate⟩ := hestimate hdecided
      exact ⟨_, hfields, hpositive, some estimate, by
        rw [if_pos hdecided]
        exact ⟨estimate, hestimate, rfl⟩, rfl⟩
    · exact ⟨_, hfields, hpositive, none, by rw [if_neg hdecided], rfl⟩

/-- The estimate that a row has for a family. -/
theorem estimateIn_contrastOf {entry : Family × String} {row : Contrast}
    (h : contrastOf maths "confirmatory" cells entry.1 entry.2 = .ok row) {estimate : Estimate} :
    estimateIn family row = some estimate ↔
      (entry.1.name = family.name ∧ Decided cells entry.1 entry.2) ∧
        estimateOf maths "confirmatory" (logsOf maths cells entry.1 entry.2) = .ok estimate := by
  obtain ⟨-, -, estimated, hestimated, rfl⟩ := contrastOf_eq_ok_iff.1 h
  rw [Estimated] at hestimated
  rw [estimateIn]
  by_cases hfamily : entry.1.name = family.name
  · rw [if_pos hfamily]
    by_cases hdecided : Decided cells entry.1 entry.2
    · rw [if_pos hdecided] at hestimated
      obtain ⟨found, hfound, rfl⟩ := hestimated
      rw [hfound]
      simp [hfamily, hdecided]
    · rw [if_neg hdecided] at hestimated
      simp [hestimated, hdecided]
  · rw [if_neg hfamily]
    simp [hfamily]

theorem mem_eligible (h : Py.traverse (fun entry =>
      contrastOf maths "confirmatory" cells entry.1 entry.2) (planned cells) = .ok contrasts)
    {estimate : Estimate} :
    estimate ∈ eligible family contrasts ↔ ∃ entry ∈ planned cells,
      (entry.1.name = family.name ∧ Decided cells entry.1 entry.2) ∧
        estimateOf maths "confirmatory" (logsOf maths cells entry.1 entry.2) = .ok estimate := by
  rw [eligible, List.mem_filterMap]
  constructor
  · rintro ⟨row, hrow, hestimate⟩
    obtain ⟨entry, hentry, hok⟩ := (mem_traverse h).1 hrow
    exact ⟨entry, hentry, (estimateIn_contrastOf hok).1 hestimate⟩
  · rintro ⟨entry, hentry, hestimate⟩
    obtain ⟨row, hok⟩ := traverse_isOk.1 ⟨contrasts, h⟩ entry hentry
    exact ⟨row, (mem_traverse h).2 ⟨entry, hentry, hok⟩, (estimateIn_contrastOf hok).2 hestimate⟩

/-- As many estimates as decided contrasts. -/
theorem length_eligible (h : Py.traverse (fun entry =>
      contrastOf maths "confirmatory" cells entry.1 entry.2) (planned cells) = .ok contrasts) :
    (eligible family contrasts).length = (planned cells).countP fun entry =>
      entry.1.name = family.name ∧ Decided cells entry.1 entry.2 := by
  have hall := traverse_eq_ok.1 h
  clear h
  rw [eligible, List.length_filterMap_eq_countP]
  generalize planned cells = entries at hall ⊢
  induction hall with
  | nil => rfl
  | @cons entry row _ _ hok _ ih =>
    have hsome : (estimateIn family row).isSome = true ↔
        entry.1.name = family.name ∧ Decided cells entry.1 entry.2 := by
      rw [Option.isSome_iff_exists]
      constructor
      · rintro ⟨estimate, hestimate⟩
        exact ((estimateIn_contrastOf hok).1 hestimate).1
      · intro hand
        obtain ⟨-, -, hcomputed⟩ := exists_contrastOf_iff.1 ⟨row, hok⟩
        obtain ⟨estimate, hestimate⟩ := hcomputed hand.2
        exact ⟨estimate, (estimateIn_contrastOf hok).2 ⟨hand, hestimate⟩⟩
    rw [List.countP_cons, List.countP_cons, ih]
    simp only [hsome, decide_eq_true_eq]

theorem mem_families {entry : Family × String} (h : entry ∈ planned cells) :
    entry.1 ∈ families := by
  obtain ⟨family, hfamily, h⟩ := List.mem_flatMap.1 h
  obtain ⟨workload, -, rfl⟩ := List.mem_map.1 h
  exact hfamily

/-- The solo cells have a cgroup summary. -/
def SoloSummaries (cells : List Cell) : Prop :=
  ∀ cell ∈ cells, cell.condition = some "solo" → cell.cgroup.isSome = true

instance (cells : List Cell) : Decidable (SoloSummaries cells) :=
  inferInstanceAs (Decidable (∀ cell ∈ cells, _))

theorem hasField_of_soloSummaries (h : SoloSummaries cells) {entry : Family × String}
    (hentry : entry ∈ planned cells) :
    ∀ cell ∈ concerned cells entry.1 entry.2, HasField entry.1.name cell := by
  intro cell hcell hthrottle
  have hsolo : ∀ family ∈ families, family.name = "throttle_gap" → family.condition = "solo" := by
    decide
  obtain ⟨hmem, -, hcondition⟩ := mem_concerned.1 hcell
  rw [hsolo _ (mem_families hentry) hthrottle] at hcondition
  exact h cell hmem hcondition

theorem map_pValue (estimates : List Estimate) :
    (estimates.map fun estimate => Py.Float.fin estimate.pValue) =
      (estimates.map Estimate.pValue).map .fin := by
  rw [List.map_map]
  rfl

/-- A step-down that returns has a family that fits and p-values. -/
theorem fits_of_corrects {estimates : List Estimate} (hsize : 0 < family.plannedSize)
    (h : Corrects maths family estimates) :
    estimates.length ≤ family.plannedSize ∧ ∀ estimate ∈ estimates, 0 ≤ estimate.pValue := by
  obtain ⟨corrections, hcorrections, -⟩ := h
  rw [map_pValue] at hcorrections
  obtain ⟨hfits, hunit⟩ := (exists_holmDecisions_iff hsize (by norm_num : (0 : ℚ) < 1 / 20)
    (by norm_num)).1 ⟨corrections, hcorrections⟩
  rw [List.length_map] at hfits
  exact ⟨hfits, fun estimate hestimate => (hunit _ (List.mem_map_of_mem hestimate)).1⟩

/-- A step-down over p-values that fit returns when the intervals are positive. -/
theorem corrects_of_fits {estimates : List Estimate} (hsize : 0 < family.plannedSize)
    (hfits : estimates.length ≤ family.plannedSize)
    (hunit : ∀ estimate ∈ estimates, 0 ≤ estimate.pValue ∧ estimate.pValue ≤ 1)
    (hinterval : ∀ estimate ∈ estimates, 0 < estimate.ciLow ∧ 0 < estimate.ciHigh) :
    Corrects maths family estimates := by
  have hvalues : ∀ value ∈ estimates.map Estimate.pValue, 0 ≤ value ∧ value ≤ 1 :=
    List.forall_mem_map.2 hunit
  obtain ⟨corrections, hcorrections⟩ := (exists_holmDecisions_iff hsize
    (by norm_num : (0 : ℚ) < 1 / 20) (by norm_num)).2
    ⟨(List.length_map _).trans_le hfits, hvalues⟩
  rw [← map_pValue] at hcorrections
  refine ⟨corrections, hcorrections, fun pair hpair => ?_⟩
  obtain ⟨hlow, hhigh⟩ := hinterval pair.1 (List.of_mem_zip hpair).1
  exact exists_settle hlow hhigh

theorem plannedSize_pos (hfamily : family ∈ families) : 0 < family.plannedSize := by
  have hall : ∀ family ∈ families, 0 < family.plannedSize := by decide
  exact hall family hfamily

theorem analyze_confirmatory_eq_ok {result : Analysis} :
    analyze maths campaign "confirmatory" = .ok result ↔
      ∃ contrasts, Py.traverse (fun entry =>
          contrastOf maths "confirmatory" campaign.cells entry.1 entry.2)
          (planned campaign.cells) = .ok contrasts ∧
        ∃ rows, fold (correct maths) contrasts families = .ok rows ∧ result =
          { protocol := protocol
            phase := "confirmatory"
            cells := campaign.cells
            contrasts := rows
            incompleteCells := campaign.incompleteCells } := by
  rw [analyze, if_neg (by decide)]
  constructor
  · intro h
    obtain ⟨contrasts, hcontrasts, h⟩ := bind_eq_ok.1 h
    obtain ⟨rows, hrows, h⟩ := bind_eq_ok.1 h
    cases h
    exact ⟨contrasts, hcontrasts, rows, hrows, rfl⟩
  · rintro ⟨contrasts, hcontrasts, rows, hrows, rfl⟩
    exact bind_eq_ok.2 ⟨contrasts, hcontrasts, bind_eq_ok.2 ⟨rows, hrows, rfl⟩⟩

theorem nodup_families : (families.map Family.name).Nodup := by decide

/-! ### The first refusal -/

/-- The block of a complete pair that is not positive. -/
def Refused (cells : List Cell) (entry : Family × String) (block : String) : Prop :=
  ∃ control treatment,
    valueIn cells entry.1 entry.2 entry.1.controlPolicy block = some control ∧
      valueIn cells entry.1 entry.2 entry.1.treatmentPolicy block = some treatment ∧
        ¬(0 < control ∧ 0 < treatment)

theorem exists_of_traverse_eq_error {α β ε : Type*} {f : α → Except ε β} {xs : List α} {e : ε}
    (h : Py.traverse f xs = .error e) : ∃ x ∈ xs, f x = .error e := by
  induction xs with
  | nil => cases h
  | cons x xs ih =>
    rw [Py.traverse] at h
    cases hx : f x with
    | error e' =>
      rw [hx] at h
      cases h
      exact ⟨x, List.mem_cons_self, hx⟩
    | ok y =>
      rw [hx] at h
      cases hrest : Py.traverse f xs with
      | error e' =>
        rw [hrest] at h
        cases h
        obtain ⟨x', hmem, hx'⟩ := ih hrest
        exact ⟨x', List.mem_cons_of_mem _ hmem, hx'⟩
      | ok ys =>
        rw [hrest] at h
        cases h

/-- The first element that raises decides. -/
theorem traverse_eq_error {α β ε : Type*} {f : α → Except ε β} {before after : List α} {x : α} {e : ε}
    (hbefore : ∀ y ∈ before, ∃ z, f y = .ok z) (hx : f x = .error e) :
    Py.traverse f (before ++ x :: after) = .error e := by
  induction before with
  | nil =>
    rw [List.nil_append, Py.traverse, hx]
    rfl
  | cons y before ih =>
    obtain ⟨⟨z, hz⟩, hbefore⟩ := List.forall_mem_cons.1 hbefore
    rw [List.cons_append, Py.traverse, hz, Except.bind, ih hbefore]
    rfl

theorem pairBlock_eq_error {control treatment : List (String × Option ℚ)} {block : String} {e : Exc}
    (h : pairBlock maths control treatment block = .error e) :
    e = ⟨.valueError, block ++ " must be strictly positive and finite"⟩ ∧
      ∃ controlValue treatmentValue, valueAt control block = some controlValue ∧
        valueAt treatment block = some treatmentValue ∧ ¬(0 < controlValue ∧ 0 < treatmentValue) := by
  unfold pairBlock at h
  rw [← valueAt, ← valueAt] at h
  cases hcontrol : valueAt control block with
  | none =>
    rw [hcontrol] at h
    cases h
  | some controlValue =>
    cases htreatment : valueAt treatment block with
    | none =>
      rw [hcontrol, htreatment] at h
      cases h
    | some treatmentValue =>
      rw [hcontrol, htreatment] at h
      dsimp only at h
      unfold requirePositive at h
      by_cases hlow : controlValue ≤ 0
      · rw [if_pos hlow] at h
        cases h
        exact ⟨rfl, controlValue, treatmentValue, rfl, rfl, fun hpos => not_le.2 hpos.1 hlow⟩
      rw [if_neg hlow] at h
      by_cases hlow' : treatmentValue ≤ 0
      · rw [if_pos hlow'] at h
        cases h
        exact ⟨rfl, controlValue, treatmentValue, rfl, rfl, fun hpos => not_le.2 hpos.2 hlow'⟩
      · rw [if_neg hlow'] at h
        cases h

/-- **A zero is refused.**  The first contrast with a complete pair that is not positive raises, if
those before it can be formed. -/
theorem analyze_eq_error (hsolo : SoloSummaries campaign.cells) {before after : List (Family × String)}
    {entry : Family × String} (hplanned : planned campaign.cells = before ++ entry :: after)
    (hbefore : ∀ earlier ∈ before, Positive campaign.cells earlier.1 earlier.2 ∧
      (Decided campaign.cells earlier.1 earlier.2 → ∃ estimate, estimateOf maths "confirmatory"
        (logsOf maths campaign.cells earlier.1 earlier.2) = .ok estimate))
    (hzero : ¬Positive campaign.cells entry.1 entry.2) :
    ∃ block, Refused campaign.cells entry block ∧ analyze maths campaign "confirmatory" =
      .error ⟨.valueError, block ++ " must be strictly positive and finite"⟩ := by
  have hmem : ∀ earlier ∈ before ++ entry :: after, earlier ∈ planned campaign.cells := by
    intro earlier h
    rwa [hplanned]
  have hgather := gather_eq_ok.2
    ⟨hasField_of_soloSummaries hsolo (hmem entry (by simp)), rfl⟩
  -- the pairs are formed before anything is estimated
  have hpairs : ∃ e, pairs maths "confirmatory" entry.1
      (sidesOf campaign.cells entry.1 entry.2) = .error e := by
    cases h : pairs maths "confirmatory" entry.1 (sidesOf campaign.cells entry.1 entry.2) with
    | error e => exact ⟨e, rfl⟩
    | ok paired => exact absurd (pairs_confirmatory_eq_ok.1 h).1 hzero
  obtain ⟨e, he⟩ := hpairs
  have hrefused : ∃ block, Refused campaign.cells entry block ∧
      e = ⟨.valueError, block ++ " must be strictly positive and finite"⟩ := by
    rw [pairs, if_neg fun hand => absurd hand.1 (by decide), pairedLogRatios] at he
    cases hblocks : Py.traverse (pairBlock maths (sidesOf campaign.cells entry.1 entry.2).control
        (sidesOf campaign.cells entry.1 entry.2).treatment)
        (allBlocks (sidesOf campaign.cells entry.1 entry.2).control
          (sidesOf campaign.cells entry.1 entry.2).treatment) with
    | ok found =>
      rw [hblocks] at he
      cases he
    | error e' =>
      rw [hblocks] at he
      cases he
      obtain ⟨block, -, hblock⟩ := exists_of_traverse_eq_error hblocks
      obtain ⟨rfl, control, treatment, hcontrol, htreatment, hnot⟩ := pairBlock_eq_error hblock
      rw [valueAt_control] at hcontrol
      rw [valueAt_treatment] at htreatment
      exact ⟨block, ⟨control, treatment, hcontrol, htreatment, hnot⟩, rfl⟩
  obtain ⟨block, hblock, rfl⟩ := hrefused
  refine ⟨block, hblock, ?_⟩
  have hentry : contrastOf maths "confirmatory" campaign.cells entry.1 entry.2 =
      .error ⟨.valueError, block ++ " must be strictly positive and finite"⟩ := by
    rw [contrastOf, hgather]
    change (pairs maths "confirmatory" entry.1 _).bind _ = _
    rw [he]
    rfl
  have hformed : ∀ earlier ∈ before, ∃ row,
      contrastOf maths "confirmatory" campaign.cells earlier.1 earlier.2 = .ok row := by
    intro earlier hearlier
    have hplace := hmem earlier (List.mem_append_left _ hearlier)
    exact exists_contrastOf_iff.2 ⟨hasField_of_soloSummaries hsolo hplace, hbefore earlier hearlier⟩
  rw [analyze, if_neg (by decide), hplanned, traverse_eq_error hformed hentry]
  rfl

/-- A result has read every value, corrected every family and estimated every decided contrast. -/
theorem conditions_of_analyze {result : Analysis}
    (h : analyze maths campaign "confirmatory" = .ok result) :
    AllPositive campaign.cells ∧ Fits campaign.cells ∧
      Estimable maths campaign.cells fun _ => True := by
  obtain ⟨contrasts, hcontrasts, rows, hrows, -⟩ := analyze_confirmatory_eq_ok.1 h
  have hcorrects := (exists_fold_correct_iff nodup_families).1 ⟨rows, hrows⟩
  have hformed := fun entry hentry => exists_contrastOf_iff.1
    (traverse_isOk.1 ⟨contrasts, hcontrasts⟩ entry hentry)
  refine ⟨fun entry hentry => (hformed entry hentry).2.1, fun family hfamily => ?_,
    fun entry hentry hdecided => ?_⟩
  · rw [← length_eligible hcontrasts]
    exact (fits_of_corrects (plannedSize_pos hfamily) (hcorrects family hfamily)).1
  · obtain ⟨estimate, hestimate⟩ := (hformed entry hentry).2.2 hdecided
    have hfamily := mem_families hentry
    have hmem : estimate ∈ eligible entry.1 contrasts :=
      (mem_eligible hcontrasts).2 ⟨entry, hentry, ⟨rfl, hdecided⟩, hestimate⟩
    exact ⟨estimate, hestimate,
      (fits_of_corrects (plannedSize_pos hfamily) (hcorrects _ hfamily)).2 _ hmem, trivial⟩

/-- The contrasts are formed first, and the correction then sees estimates in its range. -/
theorem exists_analyze (hsolo : SoloSummaries campaign.cells)
    (hpositive : AllPositive campaign.cells) (hfits : Fits campaign.cells)
    (hestimable : Estimable maths campaign.cells fun estimate =>
      0 < estimate.ciLow ∧ 0 < estimate.ciHigh) :
    ∃ result, analyze maths campaign "confirmatory" = .ok result := by
  have hformed : ∀ entry ∈ planned campaign.cells, ∃ row,
      contrastOf maths "confirmatory" campaign.cells entry.1 entry.2 = .ok row := by
    intro entry hentry
    refine exists_contrastOf_iff.2 ⟨hasField_of_soloSummaries hsolo hentry,
      hpositive entry hentry, fun hdecided => ?_⟩
    obtain ⟨estimate, hestimate, -⟩ := hestimable entry hentry hdecided
    exact ⟨estimate, hestimate⟩
  obtain ⟨contrasts, hcontrasts⟩ := traverse_isOk.2 hformed
  have hestimates : ∀ family, ∀ estimate ∈ eligible family contrasts,
      (0 ≤ estimate.pValue ∧ estimate.pValue ≤ 1) ∧ 0 < estimate.ciLow ∧ 0 < estimate.ciHigh := by
    intro family estimate hestimate
    obtain ⟨entry, hentry, ⟨-, hdecided⟩, hok⟩ := (mem_eligible hcontrasts).1 hestimate
    obtain ⟨found, hfound, hnonneg, hinterval⟩ := hestimable entry hentry hdecided
    cases hok.symm.trans hfound
    exact ⟨⟨hnonneg, pValue_estimateOf_le_one hok⟩, hinterval⟩
  have hcorrects : ∀ family ∈ families, Corrects maths family (eligible family contrasts) := by
    intro family hfamily
    refine corrects_of_fits (plannedSize_pos hfamily) ?_
      (fun estimate hestimate => (hestimates family estimate hestimate).1)
      fun estimate hestimate => (hestimates family estimate hestimate).2
    rw [length_eligible hcontrasts]
    exact hfits family hfamily
  obtain ⟨rows, hrows⟩ := (exists_fold_correct_iff nodup_families).2 hcorrects
  exact ⟨_, analyze_confirmatory_eq_ok.2 ⟨contrasts, hcontrasts, rows, hrows, rfl⟩⟩

/-- The correction changes p-values and verdicts only: names and estimates stay. -/
theorem estimated_eq_none_iff {result : Analysis}
    (h : analyze maths campaign "confirmatory" = .ok result) {entry : Family × String}
    (hentry : entry ∈ planned campaign.cells) :
    ∃ row ∈ result.contrasts, row.family = entry.1.name ∧ row.workload = entry.2 ∧
      (row.estimated = none ↔ ¬ Decided campaign.cells entry.1 entry.2) := by
  obtain ⟨contrasts, hcontrasts, rows, hrows, rfl⟩ := analyze_confirmatory_eq_ok.1 h
  obtain ⟨row, hrow⟩ := traverse_isOk.1 ⟨contrasts, hcontrasts⟩ entry hentry
  have hname : (row.family, row.workload, row.estimated.isNone) ∈
      rows.map fun row => (row.family, row.workload, row.estimated.isNone) := by
    rw [settled_names_of_fold hrows]
    exact List.mem_map.2 ⟨row, (mem_traverse hcontrasts).2 ⟨entry, hentry, hrow⟩, rfl⟩
  obtain ⟨row', hrow', heq⟩ := List.mem_map.1 hname
  obtain ⟨-, -, estimated, hestimated, rfl⟩ := contrastOf_eq_ok_iff.1 hrow
  simp only [Prod.mk.injEq] at heq
  obtain ⟨hfamily, hworkload, hnone⟩ := heq
  refine ⟨row', hrow', hfamily, hworkload, ?_⟩
  rw [← Option.isNone_iff_eq_none, hnone, Option.isNone_iff_eq_none]
  rw [Estimated] at hestimated
  split_ifs at hestimated with hdecided
  · obtain ⟨estimate, -, rfl⟩ := hestimated
    exact iff_of_false (fun h => by cases h) (not_not.2 hdecided)
  · exact iff_of_true hestimated hdecided

end Returns

/-- The metrics of a campaign whose control handled no request. -/
def idleMetrics : CsvFile where
  path := "metrics.csv"
  table :=
    { header := metricColumns
      records := soloRecords fun block =>
        [metricRecord block (soloCell "fit") "requests_per_second" "0",
          metricRecord block (soloCell "burstable-low") "requests_per_second" "10"] }

end CpuLimits

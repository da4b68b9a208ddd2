import K8Labs.Python.Comprehension
import K8Labs.Python.Nearest
import Mathlib.Data.Prod.Lex

/-!
# Freezing the pilot's policies

`freeze_values` of `research/cpu-limits/experiments/freeze_policies.py`: the fit quota of a workload
is the largest of its fit samples, the low quota that of the sample whose throttled ratio is in the
band and nearest to a quarter.  A sample without a ratio is kept as evidence, and the failure caught
there; the quotas and ratios are computed again where nothing catches it.

`freezes_iff` is the result: **the freeze returns, with the invalid samples as evidence and the low
quota of the nearest sample, whatever the order, if and only if every sample with a quota is valid, and
rounding the ratios to floats puts no other quota before that one.**
-/

namespace CpuLimits

namespace FreezePolicies

open Py

/-! ### Samples -/

/-- `CPU_VALUES` of one workload. -/
structure CpuValues where
  fit : ℤ
  low : ℤ

/-- `CPU_VALUES`. -/
def cpuValues : List (String × CpuValues) :=
  [("cpu-bound", ⟨2000, 500⟩), ("io-bound", ⟨1000, 250⟩), ("memory-bound", ⟨1000, 500⟩),
    ("hybrid", ⟨1000, 500⟩)]

/-- `WORKLOADS`. -/
def workloads : List String := ["cpu-bound", "io-bound", "memory-bound", "hybrid"]

/-- `THROTTLE_MIN`. -/
def throttleMin : ℚ := nearest 0.10

/-- `THROTTLE_MAX`. -/
def throttleMax : ℚ := nearest 0.40

/-- `THROTTLE_TARGET`. -/
def throttleTarget : ℚ := nearest 0.25

/-- `PilotSample`. -/
structure PilotSample where
  blockId : String
  cellId : String
  level : String
  workload : String
  policy : String
  quotaUs : Option ℤ
  periodUs : Option ℤ
  periods : ℤ
  throttledPeriods : ℤ

/-- A quotient of integers that is a float. -/
def finiteQuotient : Py.Float → Except Exc ℚ
  | .fin q => .ok q
  | _ => .error ⟨.overflowError, "integer division result too large for a float"⟩

/-- `m / n` of integers, the second not zero. -/
def trueDiv (m n : ℤ) : Except Exc ℚ := finiteQuotient (toDouble (m / n))

namespace PilotSample

variable (s : PilotSample)

/-- `throttled_ratio`. -/
def throttledRatio : Except Exc ℚ :=
  if s.periods ≤ 0 then valueError "nr_periods must be positive for calibration"
  else if s.throttledPeriods < 0 ∨ s.periods < s.throttledPeriods then
    valueError "nr_throttled must be within nr_periods"
  else trueDiv s.throttledPeriods s.periods

/-- `millicores`. -/
def millicores : Except Exc (Option ℤ) :=
  match s.quotaUs, s.periodUs with
  | some quota, some period =>
    if period ≤ 0 then .ok none
    else if quota ≤ 0 then valueError "cpu.max quota must be positive"
    else (trueDiv (1000 * quota) period).map fun q => some (roundHalfEven q)
  | _, _ => .ok none

end PilotSample

/-! ### The freeze -/

/-- What is recorded of a sample. -/
inductive Evidence where
  | invalid (blockId cellId level policy reason : String)
  | measured (blockId cellId level policy : String) (quotaMillicores : Option ℤ) (ratio : ℚ)
      (inTargetBand : Bool)

/-- `PASS` or `FAIL`. -/
inductive Status where
  | pass
  | fail
  deriving DecidableEq

/-- `FrozenPolicy`. -/
structure FrozenPolicy where
  workload : String
  fitMillicores : ℤ
  lowMillicores : ℤ
  status : Status
  evidence : List Evidence
  limitation : Option String

/-- The condition of `fit_candidates`. -/
def fitCandidate (s : PilotSample) : Except Exc Bool :=
  if s.policy = "fit" then s.millicores.map fun m => decide (m.getD 0 ≠ 0) else pure false

/-- The body of the loop over the samples. -/
def evidenceOf (s : PilotSample) : Except Exc Evidence :=
  let measured : Except Exc Evidence := do
    let ratio ← s.throttledRatio
    let m ← s.millicores
    pure (.measured s.blockId s.cellId s.level s.policy m ratio
      (decide (throttleMin ≤ ratio ∧ ratio ≤ throttleMax)))
  match measured with
  | .ok e => .ok e
  | .error error =>
    if error.caughtBy [.valueError] then
      .ok (.invalid s.blockId s.cellId s.level s.policy error.message)
    else .error error

/-- The condition of `low_candidates`. -/
def lowCandidate (s : PilotSample) : Except Exc Bool := do
  match ← s.millicores with
  | none => pure false
  | some _ => do
    let ratio ← s.throttledRatio
    pure (decide (throttleMin ≤ ratio ∧ ratio ≤ throttleMax))

/-- The key of the choice. -/
def lowKey (s : PilotSample) : Except Exc (ℚ ×ₗ ℤ) := do
  let ratio ← s.throttledRatio
  let m ← s.millicores
  pure (toLex (|nearest (ratio - throttleTarget)|, m.getD 0))

/-- What is frozen when no sample has a quota and a ratio in the band. -/
def approvedDefaults (workload : String) (defaults : CpuValues) (evidence : List Evidence) :
    FrozenPolicy where
  workload := workload
  fitMillicores := defaults.fit
  lowMillicores := defaults.low
  status := .fail
  evidence := evidence
  limitation := some ("pilot calibration did not produce a finite quota with a 10 to 40 percent " ++
    "throttled-period ratio; approved defaults remain in use")

/-- `freeze_values`. -/
def freezeValues (workload : String) (samples : List PilotSample) : Except Exc FrozenPolicy :=
  if workload ∉ workloads then valueError ("unknown workload: " ++ workload)
  else
    match cpuValues.lookup workload with
    | none => .error ⟨.keyError, workload⟩
    | some defaults => do
      let sampleList := samples.filter fun s => s.workload = workload
      let fitCandidates ← select fitCandidate sampleList
      let quotas ← Py.traverse PilotSample.millicores fitCandidates
      let fit := quotas.reduceOption.max?.getD defaults.fit
      let evidence ← Py.traverse evidenceOf sampleList
      let lowCandidates ← select lowCandidate sampleList
      match ← minBy lowKey lowCandidates with
      | none => pure (approvedDefaults workload defaults evidence)
      | some chosen => do
        match ← chosen.millicores with
        | none => .error ⟨.assertionError, ""⟩
        | some low =>
          pure
            { workload := workload
              fitMillicores := fit
              lowMillicores := low
              status := .pass
              evidence := evidence
              limitation := none }

/-! ### What it is for -/

namespace PilotSample

variable (s : PilotSample)

/-- Some periods, and no more of them throttled than there are. -/
def RatioValid : Prop :=
  0 < s.periods ∧ 0 ≤ s.throttledPeriods ∧ s.throttledPeriods ≤ s.periods

/-- The quota, where there is a period to it. -/
def limit : Option (ℤ × ℤ) :=
  match s.quotaUs, s.periodUs with
  | some quota, some period => if 0 < period then some (quota, period) else none
  | _, _ => none

/-- A ratio, and no quota that is not positive. -/
def Valid : Prop := s.RatioValid ∧ ∀ l ∈ s.limit, 0 < l.1

instance : Decidable s.RatioValid := inferInstanceAs (Decidable (_ ∧ _ ∧ _))

instance : Decidable s.Valid := inferInstanceAs (Decidable (_ ∧ ∀ _ ∈ _, _))

end PilotSample

/-- A way to read the throttled ratios: as they are, or rounded to floats. -/
structure Gauge where
  ratio : PilotSample → ℚ
  low : ℚ
  high : ℚ
  distance : ℚ → ℚ

/-- The ratios as they are. -/
def unrounded : Gauge where
  ratio s := s.throttledPeriods / s.periods
  low := 1 / 10
  high := 4 / 10
  distance r := |r - 1 / 4|

/-- The ratios rounded to floats, as is the distance. -/
def rounded : Gauge where
  ratio s := nearest (s.throttledPeriods / s.periods)
  low := throttleMin
  high := throttleMax
  distance r := |nearest (r - throttleTarget)|

namespace Gauge

variable (g : Gauge) (workload : String) (samples : List PilotSample)

/-- The quota of a valid sample of the workload whose ratio is in the band. -/
def candidateQuota (s : PilotSample) : Option ℤ :=
  if s.workload = workload ∧ s.Valid ∧ g.low ≤ g.ratio s ∧ g.ratio s ≤ g.high then
    s.millicores.toOption.join
  else none

/-- The samples that can be chosen, with their quotas. -/
def candidates : List (PilotSample × ℤ) :=
  samples.filterMap fun s => (g.candidateQuota workload s).map fun m => (s, m)

/-- The distance to the target, then the quota. -/
def key (c : PilotSample × ℤ) : ℚ ×ₗ ℤ := toLex (g.distance (g.ratio c.1), c.2)

/-- The quota of a candidate that none comes before. -/
def IsLow (m : ℤ) : Prop :=
  ∃ c ∈ g.candidates workload samples, c.2 = m ∧ ∀ c' ∈ g.candidates workload samples,
    g.key c ≤ g.key c'

/-- The quota that comes first. -/
def first : Option ℤ := (leastBy g.key (g.candidates workload samples)).map Prod.snd

end Gauge

/-- The quotas of the valid fit samples of a workload, without those of less than a millicore. -/
def validFits (workload : String) (samples : List PilotSample) : List ℤ :=
  samples.filterMap fun s =>
    if s.workload = workload ∧ s.policy = "fit" ∧ s.Valid then
      s.millicores.toOption.join.filter (· ≠ 0)
    else none

/-- The default fit quota of a workload. -/
def defaultFit (workload : String) : ℤ := (cpuValues.lookup workload).elim 0 CpuValues.fit

/-- What a freeze is relied on for. -/
structure Frozen (workload : String) (samples : List PilotSample) (r : FrozenPolicy) : Prop where
  recorded : ∀ s ∈ samples, s.workload = workload → ¬s.Valid →
    ∃ reason, .invalid s.blockId s.cellId s.level s.policy reason ∈ r.evidence
  fit : r.status = .pass →
    r.fitMillicores = (validFits workload samples).max?.getD (defaultFit workload)
  low : r.status = .pass ∧ unrounded.IsLow workload samples r.lowMillicores ∨
    r.status = .fail ∧ unrounded.candidates workload samples = []
  reordered : ∀ samples', samples'.Perm samples → ∃ r', freezeValues workload samples' = .ok r' ∧
    r'.status = r.status ∧ r'.fitMillicores = r.fitMillicores ∧ r'.lowMillicores = r.lowMillicores

/-- The freeze returns what it is relied on for. -/
def Freezes (workload : String) (samples : List PilotSample) : Prop :=
  ∃ r, freezeValues workload samples = .ok r ∧ Frozen workload samples r

/-- A sample that has a quota has a positive one, which is a float in millicores, and a ratio. -/
def PilotSample.Measured (s : PilotSample) : Prop :=
  ∀ l ∈ s.limit, 0 < l.1 ∧ (toDouble (1000 * l.1 / l.2)).isFinite = true ∧ s.RatioValid

/-- Rounding the ratios keeps the order of the choice: it empties and fills no band, and no sample of
another quota gets before all those that have the quota of the nearest one. -/
structure RoundingKeeps (workload : String) (samples : List PilotSample) : Prop where
  band : unrounded.candidates workload samples = [] ↔ rounded.candidates workload samples = []
  order : ∀ c ∈ unrounded.candidates workload samples,
    (∀ c' ∈ unrounded.candidates workload samples, unrounded.key c ≤ unrounded.key c') →
    ∀ d ∈ rounded.candidates workload samples, d.2 ≠ c.2 →
      ∃ c' ∈ rounded.candidates workload samples, c'.2 = c.2 ∧ rounded.key c' < rounded.key d

/-! ### One sample -/

namespace PilotSample

variable {s : PilotSample}

/-- The quota in millicores, none where there is none. -/
def quota (s : PilotSample) : Option ℤ := s.millicores.toOption.join

theorem nearest_ratio (h : s.RatioValid) :
    trueDiv s.throttledPeriods s.periods = .ok (nearest (s.throttledPeriods / s.periods)) := by
  obtain ⟨hperiods, hnonneg, hle⟩ := h
  have hpos : (0 : ℚ) < s.periods := by exact_mod_cast hperiods
  have hratio : |(s.throttledPeriods : ℚ) / s.periods| ≤ 2 ^ 1000 := by
    rw [abs_of_nonneg (div_nonneg (by exact_mod_cast hnonneg) hpos.le)]
    exact ((div_le_one hpos).2 (by exact_mod_cast hle)).trans (one_le_pow₀ one_le_two)
  rw [trueDiv, toDouble_eq_nearest hratio]
  rfl

theorem throttledRatio_eq (h : s.RatioValid) :
    s.throttledRatio = .ok (nearest (s.throttledPeriods / s.periods)) := by
  have hperiods := h.1
  have hthrottled : ¬(s.throttledPeriods < 0 ∨ s.periods < s.throttledPeriods) := by
    have := h.2
    omega
  rw [throttledRatio, if_neg (by omega), if_neg hthrottled, nearest_ratio h]

/-- Without a ratio there is a message for the record. -/
theorem throttledRatio_error (h : ¬s.RatioValid) : ∃ reason, s.throttledRatio = valueError reason := by
  unfold throttledRatio
  split_ifs with hperiods hthrottled
  · exact ⟨_, rfl⟩
  · exact ⟨_, rfl⟩
  · unfold RatioValid at h
    omega

theorem millicores_of_limit : s.millicores =
    match s.limit with
    | none => .ok none
    | some (quota, period) =>
      if quota ≤ 0 then valueError "cpu.max quota must be positive"
      else (trueDiv (1000 * quota) period).map fun q => some (roundHalfEven q) := by
  unfold millicores limit
  cases s.quotaUs with
  | none => rfl
  | some quota =>
    cases s.periodUs with
    | none => rfl
    | some period =>
      dsimp only
      by_cases hperiod : 0 < period
      · rw [if_neg (not_le.2 hperiod), if_pos hperiod]
      · rw [if_pos (not_lt.1 hperiod), if_neg hperiod]

/-- A sample with no quota has no millicores, one with a quota some or none that return. -/
theorem millicores_eq (h : s.Measured) :
    s.millicores = .ok s.quota ∧ (s.quota ≠ none → s.RatioValid) := by
  cases hlimit : s.limit with
  | none =>
    have hnone : s.millicores = .ok none := by rw [millicores_of_limit, hlimit]
    unfold quota
    rw [hnone]
    exact ⟨rfl, fun h => absurd rfl h⟩
  | some l =>
    obtain ⟨quota, period⟩ := l
    obtain ⟨hpos, hfinite, hratio⟩ := h _ hlimit
    have hsome : ∃ m, s.millicores = .ok (some m) := by
      rw [millicores_of_limit, hlimit]
      dsimp only
      rw [if_neg (not_le.2 hpos), trueDiv]
      push_cast
      revert hfinite
      cases toDouble (1000 * quota / period) with
      | fin q => exact fun _ => ⟨_, rfl⟩
      | inf => exact fun h => by cases h
      | negInf => exact fun h => by cases h
      | nan => exact fun h => by cases h
    obtain ⟨m, hm⟩ := hsome
    exact ⟨by rw [PilotSample.quota, hm]; rfl, fun _ => hratio⟩

/-- A sample for which the condition of `low_candidates` returns is measured. -/
theorem measured_of_lowCandidate {b : Bool} (h : lowCandidate s = .ok b) : s.Measured := by
  intro l hl
  obtain ⟨quota, period⟩ := l
  obtain ⟨m, hm, hrest⟩ := bind_eq_ok.1 h
  rw [millicores_of_limit, hl] at hm
  dsimp only at hm
  split_ifs at hm with hquota
  · cases hm
  obtain ⟨q, hq, rfl⟩ := map_eq_ok.1 hm
  obtain ⟨ratio, hratio, -⟩ := bind_eq_ok.1 hrest
  refine ⟨not_le.1 hquota, ?_, ?_⟩
  · rw [trueDiv] at hq
    push_cast at hq
    revert hq
    cases toDouble (1000 * quota / period) with
    | fin q => exact fun _ => rfl
    | inf => exact fun h => by cases h
    | negInf => exact fun h => by cases h
    | nan => exact fun h => by cases h
  · by_contra hinvalid
    obtain ⟨reason, herror⟩ := throttledRatio_error hinvalid
    rw [herror] at hratio
    cases hratio

/-- Where every quota is measured an invalid sample has no ratio. -/
theorem Measured.valid_iff (h : s.Measured) : s.Valid ↔ s.RatioValid :=
  ⟨fun hvalid => hvalid.1, fun hratio => ⟨hratio, fun l hl => (h l hl).1⟩⟩

end PilotSample

section Sample

variable {s : PilotSample}

theorem fitCandidate_eq (h : s.Measured) :
    fitCandidate s = .ok (decide (s.policy = "fit" ∧ s.quota.getD 0 ≠ 0)) := by
  unfold fitCandidate
  rw [(PilotSample.millicores_eq h).1]
  by_cases hfit : s.policy = "fit"
  · rw [if_pos hfit]
    simp [Except.map, hfit]
  · rw [if_neg hfit]
    simp [hfit, pure, Except.pure]

theorem evidenceOf_eq (h : s.Measured) : ∃ e, evidenceOf s = .ok e ∧
    (¬s.Valid → ∃ reason, e = .invalid s.blockId s.cellId s.level s.policy reason) := by
  unfold evidenceOf
  by_cases hratio : s.RatioValid
  · rw [PilotSample.throttledRatio_eq hratio, (PilotSample.millicores_eq h).1]
    exact ⟨_, rfl, fun hinvalid => absurd (h.valid_iff.2 hratio) hinvalid⟩
  · obtain ⟨reason, herror⟩ := PilotSample.throttledRatio_error hratio
    rw [herror]
    exact ⟨_, rfl, fun _ => ⟨reason, rfl⟩⟩

theorem candidateQuota_eq_some {g : Gauge} {workload : String} {m : ℤ} :
    g.candidateQuota workload s = some m ↔
      (s.workload = workload ∧ s.Valid ∧ g.low ≤ g.ratio s ∧ g.ratio s ≤ g.high) ∧
        s.quota = some m := by
  unfold Gauge.candidateQuota
  by_cases h : s.workload = workload ∧ s.Valid ∧ g.low ≤ g.ratio s ∧ g.ratio s ≤ g.high
  · rw [if_pos h]
    exact (and_iff_right h).symm
  · rw [if_neg h]
    exact ⟨fun hm => (by cases hm), fun hm => absurd hm.1 h⟩

/-- The samples that the code can choose are those that the rounded ratios put into the band. -/
theorem lowCandidate_eq (h : s.Measured) :
    lowCandidate s = .ok (rounded.candidateQuota s.workload s).isSome := by
  obtain ⟨hmillicores, hratio⟩ := PilotSample.millicores_eq h
  unfold lowCandidate
  rw [hmillicores]
  cases hquota : s.quota with
  | none =>
    have hnone : rounded.candidateQuota s.workload s = none := by
      refine Option.eq_none_iff_forall_ne_some.2 fun m hm => ?_
      rw [(candidateQuota_eq_some.1 hm).2] at hquota
      cases hquota
    rw [hnone]
    rfl
  | some m =>
    have hvalid := hratio (by rw [hquota]; exact Option.some_ne_none m)
    rw [PilotSample.throttledRatio_eq hvalid]
    refine congrArg Except.ok (Bool.eq_iff_iff.2 ?_)
    rw [decide_eq_true_eq, Option.isSome_iff_exists]
    simp only [candidateQuota_eq_some, hquota, h.valid_iff, hvalid, true_and]
    exact ⟨fun hband => ⟨m, hband, rfl⟩, fun ⟨_, hband, _⟩ => hband⟩

theorem lowKey_eq {workload : String} {m : ℤ} (h : s.Measured)
    (hm : rounded.candidateQuota workload s = some m) : lowKey s = .ok (rounded.key (s, m)) := by
  obtain ⟨⟨-, hvalid, -⟩, hquota⟩ := candidateQuota_eq_some.1 hm
  rw [lowKey, PilotSample.throttledRatio_eq hvalid.1, (PilotSample.millicores_eq h).1, hquota]
  rfl

end Sample

/-! ### The choice -/

namespace Gauge

variable {g : Gauge} {workload : String} {samples samples' : List PilotSample} {m m' : ℤ}

theorem mem_candidates {c : PilotSample × ℤ} : c ∈ g.candidates workload samples ↔
    c.1 ∈ samples ∧ g.candidateQuota workload c.1 = some c.2 := by
  obtain ⟨s, m⟩ := c
  rw [candidates, List.mem_filterMap]
  simp only [Option.map_eq_some_iff, Prod.mk.injEq]
  constructor
  · rintro ⟨s', hs', m', hm', rfl, rfl⟩
    exact ⟨hs', hm'⟩
  · rintro ⟨hs, hm⟩
    exact ⟨s, hs, m, hm, rfl, rfl⟩

/-- Candidates that none comes before have one quota. -/
theorem IsLow.unique (h : g.IsLow workload samples m) (h' : g.IsLow workload samples m') :
    m = m' := by
  obtain ⟨c, hc, rfl, hleast⟩ := h
  obtain ⟨c', hc', rfl, hleast'⟩ := h'
  have hkey := le_antisymm (hleast c' hc') (hleast' c hc)
  exact congrArg (fun k => (ofLex k).2) hkey

theorem first_eq_some_iff : g.first workload samples = some m ↔ g.IsLow workload samples m := by
  have hlow : ∀ {m}, g.first workload samples = some m → g.IsLow workload samples m := by
    intro m hm
    obtain ⟨c, hc, rfl⟩ := Option.map_eq_some_iff.1 hm
    exact ⟨c, mem_of_leastBy hc, rfl, fun c' hc' => le_of_leastBy hc hc'⟩
  refine ⟨hlow, fun h => ?_⟩
  cases hfirst : g.first workload samples with
  | some m' => rw [(hlow hfirst).unique h]
  | none =>
    obtain ⟨c, hc, -⟩ := h
    rw [first, Option.map_eq_none_iff, leastBy_eq_none] at hfirst
    rw [hfirst] at hc
    cases hc

theorem first_eq_none_iff : g.first workload samples = none ↔ g.candidates workload samples = [] := by
  rw [first, Option.map_eq_none_iff, leastBy_eq_none]

theorem isLow_perm (h : samples'.Perm samples) :
    g.IsLow workload samples' m ↔ g.IsLow workload samples m := by
  unfold IsLow
  simp only [mem_candidates, h.mem_iff]

/-- Which quota comes first does not depend on the order. -/
theorem first_perm (h : samples'.Perm samples) :
    g.first workload samples' = g.first workload samples := by
  refine Option.ext fun m => ?_
  rw [first_eq_some_iff, first_eq_some_iff, isLow_perm h]

end Gauge

/-- Rounding keeps the order of the choice exactly when one quota comes first with either ratios. -/
theorem first_eq_first_iff {workload : String} {samples : List PilotSample} :
    unrounded.first workload samples = rounded.first workload samples ↔
      RoundingKeeps workload samples := by
  constructor
  · intro h
    refine ⟨by rw [← Gauge.first_eq_none_iff, h, Gauge.first_eq_none_iff], ?_⟩
    intro c hc hleast d hd hquota
    have hfirst := Gauge.first_eq_some_iff.2 ⟨c, hc, rfl, hleast⟩
    obtain ⟨c', hc', hsame, hleast'⟩ := Gauge.first_eq_some_iff.1 (h ▸ hfirst)
    refine ⟨c', hc', hsame, lt_of_le_of_ne (hleast' d hd) fun hkey => hquota ?_⟩
    rw [← hsame]
    exact congrArg (fun k => (ofLex k).2) hkey.symm
  · rintro ⟨hband, horder⟩
    cases hfirst : unrounded.first workload samples with
    | none => exact (Gauge.first_eq_none_iff.2 (hband.1 (Gauge.first_eq_none_iff.1 hfirst))).symm
    | some m =>
      cases hrounded : rounded.first workload samples with
      | none =>
        rw [Gauge.first_eq_none_iff, ← hband, ← Gauge.first_eq_none_iff, hfirst] at hrounded
        cases hrounded
      | some m' =>
        -- the one that comes first when rounded has the same quota, as it comes before no other
        obtain ⟨c, hc, rfl, hleast⟩ := Gauge.first_eq_some_iff.1 hfirst
        obtain ⟨d, hd, rfl, hleast'⟩ := Gauge.first_eq_some_iff.1 hrounded
        by_contra hquota
        obtain ⟨c', hc', -, hlt⟩ := horder c hc hleast d hd fun h => hquota (congrArg some h.symm)
        exact absurd (hleast' c' hc') (not_le.2 hlt)

/-! ### The freeze returns -/

section Freeze

variable {workload : String} {samples samples' : List PilotSample} {r r' : FrozenPolicy}

theorem validFits_perm (h : samples'.Perm samples) :
    (validFits workload samples').max? = (validFits workload samples).max? := by
  have hperm : (validFits workload samples').Perm (validFits workload samples) := h.filterMap _
  refine Option.ext fun m => ?_
  rw [List.max?_eq_some_iff, List.max?_eq_some_iff]
  simp only [hperm.mem_iff]

/-- What the freeze returns, in terms of the rounded ratios. -/
structure Computed (workload : String) (samples : List PilotSample) (r : FrozenPolicy) : Prop where
  evidence : Py.traverse evidenceOf (samples.filter fun s => s.workload = workload) = .ok r.evidence
  result : r.status = .pass ∧ rounded.first workload samples = some r.lowMillicores ∧
      r.fitMillicores = (validFits workload samples).max?.getD (defaultFit workload) ∨
    r.status = .fail ∧ rounded.first workload samples = none ∧
      r.fitMillicores = defaultFit workload ∧
      r.lowMillicores = (cpuValues.lookup workload).elim 0 CpuValues.low

/-- The order of the samples shows in the evidence only. -/
theorem Computed.perm (hperm : samples'.Perm samples) (h : Computed workload samples r)
    (h' : Computed workload samples' r') : r'.status = r.status ∧
      r'.fitMillicores = r.fitMillicores ∧ r'.lowMillicores = r.lowMillicores := by
  have hfirst : rounded.first workload samples' = rounded.first workload samples :=
    Gauge.first_perm hperm
  have hfits : (validFits workload samples').max? = (validFits workload samples).max? :=
    validFits_perm hperm
  rcases h.result with ⟨hs, hlow, hfit⟩ | ⟨hs, hlow, hfit, hdefault⟩
  · rcases h'.result with ⟨hs', hlow', hfit'⟩ | ⟨-, hlow', -⟩ <;> rw [hfirst, hlow] at hlow'
    · exact ⟨hs'.trans hs.symm, by rw [hfit', hfits, hfit], (Option.some.inj hlow').symm⟩
    · cases hlow'
  · rcases h'.result with ⟨-, hlow', -⟩ | ⟨hs', -, hfit', hdefault'⟩
    · rw [hfirst, hlow] at hlow'
      cases hlow'
    · exact ⟨hs'.trans hs.symm, hfit'.trans hfit.symm, hdefault'.trans hdefault.symm⟩

theorem lookup_of_mem (h : workload ∈ workloads) :
    ∃ defaults, cpuValues.lookup workload = some defaults := by
  have hall : ∀ w ∈ workloads, (cpuValues.lookup w).isSome = true := by decide
  exact Option.isSome_iff_exists.1 (hall workload h)

/-- The quotas of the fit candidates are those of the valid fit samples. -/
theorem fitQuotas_eq (h : ∀ s ∈ samples, s.workload = workload → s.Measured) :
    (((samples.filter fun s => s.workload = workload).filter fun s =>
      decide (s.policy = "fit" ∧ s.quota.getD 0 ≠ 0)).map PilotSample.quota).reduceOption =
      validFits workload samples := by
  change List.filterMap id _ = _
  rw [List.filterMap_map, List.filterMap_filter, List.filterMap_filter, validFits]
  refine List.filterMap_congr fun s hs => ?_
  by_cases hworkload : s.workload = workload
  swap
  · rw [if_neg (by simpa using hworkload), if_neg fun h => hworkload h.1]
  have hmeasured := h s hs hworkload
  rw [if_pos (by simpa using hworkload)]
  change _ = if s.workload = workload ∧ s.policy = "fit" ∧ s.Valid then
    s.quota.filter (· ≠ 0) else none
  cases hquota : s.quota with
  | none => simp
  | some m =>
    have hvalid : s.Valid := hmeasured.valid_iff.2
      ((PilotSample.millicores_eq hmeasured).2 (by rw [hquota]; exact Option.some_ne_none m))
    by_cases hm : m = 0
    · simp [hm, Option.filter]
    · simp [hquota, hm, hvalid, hworkload, Option.filter]

/-- The sample that is chosen: one with the quota that comes first when the ratios are rounded. -/
theorem exists_chosen (h : ∀ s ∈ samples, s.workload = workload → s.Measured) :
    ∃ lows chosen, select lowCandidate (samples.filter fun s => s.workload = workload) = .ok lows ∧
      minBy lowKey lows = .ok chosen ∧ (chosen = none → rounded.first workload samples = none) ∧
      ∀ s ∈ chosen, ∃ m, s.millicores = .ok (some m) ∧ rounded.first workload samples = some m := by
  set mine := samples.filter fun s => s.workload = workload with hmine
  have hlows := select_eq_ok fun s (hs : s ∈ mine) => lowCandidate_eq <| by
    rw [hmine, List.mem_filter, decide_eq_true_eq] at hs
    exact h s hs.1 hs.2
  set lows := mine.filter fun s => (rounded.candidateQuota s.workload s).isSome with hlowsdef
  have hmem : ∀ s, s ∈ lows ↔ s ∈ samples ∧ ∃ m, rounded.candidateQuota workload s = some m := by
    intro s
    rw [hlowsdef, hmine, List.mem_filter, List.mem_filter, decide_eq_true_eq,
      Option.isSome_iff_exists]
    constructor
    · rintro ⟨⟨hs, rfl⟩, hm⟩
      exact ⟨hs, hm⟩
    · rintro ⟨hs, m, hm⟩
      obtain rfl := (candidateQuota_eq_some.1 hm).1.1
      exact ⟨⟨hs, rfl⟩, m, hm⟩
  -- the key reads the quota of a candidate, which is there
  have hkeys : ∀ s ∈ lows, lowKey s = .ok (rounded.key (s, s.quota.getD 0)) := by
    intro s hs
    obtain ⟨hsample, m, hm⟩ := (hmem s).1 hs
    obtain ⟨⟨hworkload, -⟩, hquota⟩ := candidateQuota_eq_some.1 hm
    rw [lowKey_eq (h s hsample hworkload) hm, hquota]
    rfl
  obtain ⟨chosen, hchosen, hnone, hleast⟩ := minBy_eq_ok hkeys
  refine ⟨lows, chosen, hlows, hchosen, fun hempty => ?_, fun s hs => ?_⟩
  · rw [Gauge.first_eq_none_iff]
    refine List.eq_nil_iff_forall_not_mem.2 fun c hc => ?_
    obtain ⟨hs, hm⟩ := Gauge.mem_candidates.1 hc
    have hlow : c.1 ∈ lows := (hmem _).2 ⟨hs, _, hm⟩
    rw [hnone.1 hempty] at hlow
    cases hlow
  · obtain ⟨hlow, hfirst⟩ := hleast s hs
    obtain ⟨hsample, m, hm⟩ := (hmem s).1 hlow
    obtain ⟨⟨hworkload, -⟩, hquota⟩ := candidateQuota_eq_some.1 hm
    refine ⟨m, ?_, ?_⟩
    · rw [(PilotSample.millicores_eq (h s hsample hworkload)).1, hquota]
    · refine Gauge.first_eq_some_iff.2 ⟨(s, m), Gauge.mem_candidates.2 ⟨hsample, hm⟩, rfl, ?_⟩
      intro c hc
      obtain ⟨hs', hm'⟩ := Gauge.mem_candidates.1 hc
      have hle := hfirst c.1 ((hmem _).2 ⟨hs', _, hm'⟩)
      rwa [hquota, (candidateQuota_eq_some.1 hm').2] at hle

theorem freezeValues_eq (hworkload : workload ∈ workloads)
    (h : ∀ s ∈ samples, s.workload = workload → s.Measured) :
    ∃ r, freezeValues workload samples = .ok r ∧ Computed workload samples r := by
  obtain ⟨defaults, hdefaults⟩ := lookup_of_mem hworkload
  obtain ⟨lows, chosen, hlows, hchosen, hnone, hsome⟩ := exists_chosen h
  have hfitted := fitQuotas_eq h
  set mine := samples.filter fun s => s.workload = workload with hmine
  have hmeasured : ∀ s ∈ mine, s.Measured := fun s hs => by
    rw [hmine, List.mem_filter, decide_eq_true_eq] at hs
    exact h s hs.1 hs.2
  have hfits := select_eq_ok fun s hs => fitCandidate_eq (hmeasured s hs)
  have hquotas : Py.traverse PilotSample.millicores
      (mine.filter fun s => decide (s.policy = "fit" ∧ s.quota.getD 0 ≠ 0)) = .ok _ :=
    traverse_ok fun s hs => (PilotSample.millicores_eq (hmeasured s (List.mem_filter.1 hs).1)).1
  obtain ⟨evidence, hevidence⟩ := traverse_isOk.2 fun s hs =>
    let ⟨e, he, _⟩ := evidenceOf_eq (hmeasured s hs)
    ⟨e, he⟩
  have hfit : defaultFit workload = defaults.fit := by rw [defaultFit, hdefaults]; rfl
  unfold freezeValues
  rw [if_neg (not_not.2 hworkload), hdefaults]
  cases chosen with
  | none =>
    refine ⟨approvedDefaults workload defaults evidence, ?_, hevidence,
      .inr ⟨rfl, hnone rfl, hfit.symm, ?_⟩⟩
    · simp only [← hmine, hfits, hquotas, hevidence, hlows, hchosen, bind, Except.bind, pure,
        Except.pure]
    · rw [hdefaults]
      rfl
  | some s =>
    obtain ⟨m, hmillicores, hfirst⟩ := hsome s rfl
    refine ⟨⟨workload, (validFits workload samples).max?.getD defaults.fit, m, .pass, evidence,
      none⟩, ?_, hevidence, .inl ⟨rfl, hfirst, by rw [hfit]⟩⟩
    simp only [← hmine, hfits, hquotas, hevidence, hlows, hchosen, hmillicores, bind, Except.bind,
      pure, Except.pure, hfitted]

/-- A freeze that returns has asked every sample of the workload for its quota and its ratio. -/
theorem measured_of_freezeValues (h : freezeValues workload samples = .ok r) :
    workload ∈ workloads ∧ ∀ s ∈ samples, s.workload = workload → s.Measured := by
  unfold freezeValues at h
  by_cases hworkload : workload ∈ workloads
  swap
  · rw [if_pos hworkload] at h
    cases h
  obtain ⟨defaults, hdefaults⟩ := lookup_of_mem hworkload
  rw [if_neg (not_not.2 hworkload), hdefaults] at h
  refine ⟨hworkload, fun s hs hs' => ?_⟩
  obtain ⟨fits, -, h⟩ := bind_eq_ok.1 h
  obtain ⟨quotas, -, h⟩ := bind_eq_ok.1 h
  obtain ⟨evidence, -, h⟩ := bind_eq_ok.1 h
  obtain ⟨lows, hlows, -⟩ := bind_eq_ok.1 h
  obtain ⟨b, hb⟩ := isOk_of_select hlows s (List.mem_filter.2 ⟨hs, decide_eq_true hs'⟩)
  exact PilotSample.measured_of_lowCandidate hb

/-- **When the freeze does what it is for.** -/
theorem freezes_iff (workload : String) (samples : List PilotSample) :
    Freezes workload samples ↔ workload ∈ workloads ∧
      (∀ s ∈ samples, s.workload = workload → s.Measured) ∧ RoundingKeeps workload samples := by
  rw [← first_eq_first_iff]
  constructor
  · rintro ⟨r, hr, hfrozen⟩
    obtain ⟨hworkload, hmeasured⟩ := measured_of_freezeValues hr
    obtain ⟨r', hr', hcomputed⟩ := freezeValues_eq hworkload hmeasured
    rw [hr] at hr'
    cases hr'
    refine ⟨hworkload, hmeasured, ?_⟩
    rcases hcomputed.result with ⟨hs, hlow, -⟩ | ⟨hs, hlow, -⟩ <;>
      rcases hfrozen.low with ⟨hs', hlow'⟩ | ⟨hs', hlow'⟩ <;> rw [hs] at hs' <;> cases hs'
    · rw [hlow, Gauge.first_eq_some_iff.2 hlow']
    · rw [hlow, Gauge.first_eq_none_iff.2 hlow']
  · rintro ⟨hworkload, hmeasured, hrounding⟩
    obtain ⟨r, hr, hcomputed⟩ := freezeValues_eq hworkload hmeasured
    refine ⟨r, hr, fun s hs hs' hinvalid => ?_, fun hpass => ?_, ?_, fun samples' hperm => ?_⟩
    · obtain ⟨e, he, hrecord⟩ := evidenceOf_eq (hmeasured s hs hs')
      obtain ⟨reason, rfl⟩ := hrecord hinvalid
      exact ⟨reason, (mem_traverse hcomputed.evidence).2
        ⟨s, List.mem_filter.2 ⟨hs, decide_eq_true hs'⟩, he⟩⟩
    · rcases hcomputed.result with ⟨-, -, hfit⟩ | ⟨hs, -⟩
      · exact hfit
      · rw [hs] at hpass
        cases hpass
    · rcases hcomputed.result with ⟨hs, hlow, -⟩ | ⟨hs, hlow, -⟩ <;> rw [← hrounding] at hlow
      · exact .inl ⟨hs, Gauge.first_eq_some_iff.1 hlow⟩
      · exact .inr ⟨hs, Gauge.first_eq_none_iff.1 hlow⟩
    · have hmeasured' : ∀ s ∈ samples', s.workload = workload → s.Measured :=
        fun s hs => hmeasured s (hperm.mem_iff.1 hs)
      obtain ⟨r', hr', hcomputed'⟩ := freezeValues_eq hworkload hmeasured'
      exact ⟨r', hr', hcomputed.perm hperm hcomputed'⟩

/-- A sample of no periods, with a quota. -/
def noPeriods : PilotSample where
  blockId := "block-01"
  cellId := "solo-cpu-bound-burstable-low"
  level := "pod_slice"
  workload := "cpu-bound"
  policy := "burstable-low"
  quotaUs := some 50000
  periodUs := some 100000
  periods := 0
  throttledPeriods := 0

/-- Such a sample, alone, ends the freeze. -/
theorem noPeriods_aborts : ¬Freezes "cpu-bound" [noPeriods] := by
  rintro ⟨r, hr, -⟩
  obtain ⟨-, -, hratio⟩ := (measured_of_freezeValues hr).2 noPeriods List.mem_cons_self rfl _ rfl
  exact absurd hratio.1 (by decide)

/-- At 3 and at 7 of 20 periods the ratios are as far from a quarter; of the floats the second is
nearer, with the larger quota. -/
example :
    let sample (quota throttled : ℤ) : PilotSample :=
      ⟨"block-01", "cell", "pod_slice", "cpu-bound", "burstable-low", some quota, some 100000, 20,
        throttled⟩
    unrounded.first "cpu-bound" [sample 10000 3, sample 20000 7] = some 100 ∧
      rounded.first "cpu-bound" [sample 10000 3, sample 20000 7] = some 200 := by
  decide +kernel

end Freeze

end FreezePolicies

end CpuLimits

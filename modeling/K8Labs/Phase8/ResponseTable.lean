import K8Labs.Phase8.Monotonic
import K8Labs.Python.Dict
import K8Labs.Python.General
import K8Labs.Python.Value
import Mathlib.Algebra.Order.Group.MinMax

/-!
# Confidence bounds of the fitted response

`fit_response_table` groups measured rows by their abscissa, fits the means of the levels that
have enough samples with `fit_monotonic`, and widens the bounds of the fit by the standard error
inside each level.

* `fitResponseTable` is the function, over rows of arbitrary values.
* `Width` is what both functions do with a confidence level: the interval at a knot is the fitted
  value plus and minus the normal quantile times a half-width that does not depend on the level
  (`fitMonotonic_width`, `fitResponseTable_width`).
* `confidence_widens_iff` says when more confidence gives a wider interval.  The quantile is looked
  up for the level rounded to two digits, with 1.96 for every level off the table, so the quantile
  falls from below 0.90 to 0.90 and from 0.99 to 1.00.
-/

namespace Phase8

open Isotonic Py

/-! ### The table -/

/-- `isinstance(v, (int, float))`; a `bool` is an `int`. -/
def isNumber : Value → Bool
  | .scalar (.bool _) => true
  | .scalar (.int _) => true
  | .scalar (.float _) => true
  | _ => false

/-- The body of the loop over the rows: the abscissa and the response of a row that counts. -/
def measuredRow (xKey yKey : String) (row : Items) : Except Exc (Option (ℚ × ℚ)) :=
  match row.get "valid" with
  | .scalar (.bool true) =>
    let bound := (row.lookup "dependency_bound").getD (.str "no")
    if !(bound.eq .none || bound.eq (.str "no")) then .ok none
    else if !isNumber (row.get xKey) || !isNumber (row.get yKey) then .ok none
    else
      (row.get xKey).toFloat.bind fun x =>
        if !x.isFinite then .ok none
        else (row.get yKey).toFloat.bind fun value =>
          if !value.isFinite then .ok none else .ok (some (x.toRat, value.toRat))
  | _ => .ok none

/-- `grouped.setdefault(x, []).append(value)`. -/
def addSample (x value : ℚ) : List (ℚ × List ℚ) → List (ℚ × List ℚ)
  | [] => [(x, [value])]
  | (y, values) :: grouped =>
    if y = x then (y, values ++ [value]) :: grouped else (y, values) :: addSample x value grouped

/-- The samples of every abscissa, in the order in which the abscissae first occur. -/
def groupedRows (xKey yKey : String) (rows : List Items) : Except Exc (List (ℚ × List ℚ)) :=
  Py.fold (fun grouped row => (measuredRow xKey yKey row).map fun
    | some (x, value) => addSample x value grouped
    | none => grouped) [] rows

/-- The levels with at least `min_samples` samples, in the order of their abscissae. -/
def usableLevels (minSamples : ℤ) (grouped : List (ℚ × List ℚ)) : List (ℚ × List ℚ) :=
  (grouped.insertionSort fun a b => a.1 ≤ b.1).filter fun level => minSamples ≤ level.2.length

/-- The observation of a level: the mean of its samples. -/
def levelObservation (level : ℚ × List ℚ) : Observation := ⟨.fin level.1, .fin (mean level.2)⟩

/-- `statistics.stdev`. -/
def stdev (sqrt : Py.Sqrt) (data : List ℚ) : ℚ :=
  sqrt.fn ((data.map fun r => (r - mean data) ^ 2).sum / (data.length - 1))

/-- The standard error of the mean of a level. -/
def standardError (sqrt : Py.Sqrt) (samples : List ℚ) : ℚ :=
  stdev sqrt samples / sqrt.fn samples.length

/-- The bounds of the fit, widened at each knot by the standard error of its level. -/
def widenBounds (sqrt : Py.Sqrt) (confidence : ℚ) (grouped : List (ℚ × List ℚ))
    (fit : MonotonicFit) : MonotonicFit :=
  let margin := fun x => zScore confidence * standardError sqrt ((grouped.lookup x).getD [])
  { fit with
    lower := ((fit.xs.zip fit.values).zip fit.lower).map fun ((x, fitted), fitLow) =>
      max 0 (min fitLow (fitted - margin x))
    upper := ((fit.xs.zip fit.values).zip fit.upper).map fun ((x, fitted), fitHigh) =>
      max fitHigh (fitted + margin x)
    sampleCount := (fit.xs.map fun x => ((grouped.lookup x).getD []).length).sum }

/-- `fit_response_table`. -/
def fitResponseTable (sqrt : Py.Sqrt) (rows : List Items) (xKey yKey direction : String)
    (minSamples : ℤ) (confidence : ℚ) : Except Exc MonotonicFit :=
  if minSamples < 2 then
    valueError "min_samples must be at least two for confidence estimation"
  else
    (groupedRows xKey yKey rows).bind fun grouped =>
      let usable := usableLevels minSamples grouped
      if usable.length < 2 then
        valueError ("insufficient usable measured cells: need at least two levels with " ++
          toString minSamples ++ " samples each")
      else
        (fitMonotonic sqrt (usable.map levelObservation) direction confidence).map
          (widenBounds sqrt confidence grouped)

/-! ### Half-widths -/

/-- The intervals of a fit are the fitted values with the given half-widths, times the quantile of
the confidence level. -/
structure Width (confidence : ℚ) (halfWidths : List ℚ) (fit : MonotonicFit) : Prop where
  length_eq : halfWidths.length = fit.values.length
  nonneg : ∀ k ∈ halfWidths, 0 ≤ k
  lower_eq : fit.lower =
    List.zipWith (fun v k => max 0 (v - zScore confidence * k)) fit.values halfWidths
  upper_eq : fit.upper = List.zipWith (fun v k => v + zScore confidence * k) fit.values halfWidths

/-- Every interval of `wide` contains the interval of `narrow` for the same point. -/
def Encloses (wide narrow : MonotonicFit) : Prop :=
  wide.xs = narrow.xs ∧ List.Forall₂ (· ≤ ·) wide.lower narrow.lower ∧
    List.Forall₂ (· ≤ ·) narrow.upper wide.upper

theorem zScore_pos (confidence : ℚ) : 0 < zScore confidence := by
  unfold zScore
  split_ifs <;> norm_num

theorem forall₂_zipWith {α β γ : Type*} {R : γ → γ → Prop} {f g : α → β → γ} {as : List α}
    {bs : List β} (h : as.length = bs.length) :
    List.Forall₂ R (List.zipWith f as bs) (List.zipWith g as bs) ↔
      ∀ p ∈ as.zip bs, R (f p.1 p.2) (g p.1 p.2) := by
  induction as generalizing bs with
  | nil => simp
  | cons a as ih =>
    obtain ⟨b, bs, rfl⟩ := List.exists_cons_of_length_eq_add_one h.symm
    simp only [List.zipWith_cons_cons, List.forall₂_cons, List.zip_cons_cons, List.forall_mem_cons,
      ih (by simpa using h)]

theorem forall_mem_zip_snd {as bs : List ℚ} (h : as.length = bs.length) {P : ℚ → Prop} :
    (∀ p ∈ as.zip bs, P p.2) ↔ ∀ b ∈ bs, P b := by
  rw [← List.forall_mem_map (P := P) (f := Prod.snd), List.map_snd_zip h.ge]

/-- With the same half-widths, one level's intervals enclose another's exactly when its quantile
is as large, or there is no width at all. -/
theorem Width.encloses_iff {c₁ c₂ : ℚ} {halfWidths : List ℚ} {fit₁ fit₂ : MonotonicFit}
    (h₁ : Width c₁ halfWidths fit₁) (h₂ : Width c₂ halfWidths fit₂) (hxs : fit₂.xs = fit₁.xs)
    (hvalues : fit₂.values = fit₁.values) :
    Encloses fit₂ fit₁ ↔ zScore c₁ ≤ zScore c₂ ∨ ∀ k ∈ halfWidths, k = 0 := by
  have hlen := h₁.length_eq.symm
  unfold Encloses
  rw [h₁.lower_eq, h₁.upper_eq, h₂.lower_eq, h₂.upper_eq, hvalues, forall₂_zipWith hlen,
    forall₂_zipWith hlen]
  simp only [hxs, true_and, add_le_add_iff_left]
  rw [forall_mem_zip_snd hlen (P := fun k => zScore c₁ * k ≤ zScore c₂ * k)]
  constructor
  · rintro ⟨-, hupper⟩
    refine or_iff_not_imp_left.2 fun hlt k hk => ?_
    -- a positive half-width would make the upper end fall
    by_contra hne
    have hpos : 0 < k := lt_of_le_of_ne (h₁.nonneg k hk) (Ne.symm hne)
    exact hlt (le_of_mul_le_mul_right (hupper k hk) hpos)
  · rintro h
    have hle : ∀ k ∈ halfWidths, zScore c₁ * k ≤ zScore c₂ * k := by
      intro k hk
      rcases h with hz | hzero
      · exact mul_le_mul_of_nonneg_right hz (h₁.nonneg k hk)
      · simp [hzero k hk]
    refine ⟨fun p hp => ?_, hle⟩
    have := hle p.2 (List.of_mem_zip hp).2
    exact max_le_max_left 0 (by linarith)

/-! ### No width -/

theorem sum_map_sq_nonneg (data : List ℚ) (m : ℚ) :
    0 ≤ (data.map fun r => (r - m) ^ 2).sum := by
  refine List.sum_nonneg fun q hq => ?_
  obtain ⟨r, -, rfl⟩ := List.mem_map.1 hq
  positivity

theorem sum_map_sq_eq_zero {data : List ℚ} {m : ℚ} :
    (data.map fun r => (r - m) ^ 2).sum = 0 ↔ ∀ r ∈ data, r = m := by
  induction data with
  | nil => simp
  | cons a data ih =>
    have h₁ := sq_nonneg (a - m)
    have h₂ := sum_map_sq_nonneg data m
    rw [List.map_cons, List.sum_cons, List.forall_mem_cons, ← ih, ← sub_eq_zero (a := a),
      ← pow_eq_zero_iff (two_ne_zero (α := ℕ)) (a := a - m)]
    constructor
    · intro h
      exact ⟨by linarith, by linarith⟩
    · rintro ⟨h₁, h₂⟩
      rw [h₁, h₂, add_zero]

theorem pstdev_eq_zero {sqrt : Py.Sqrt} (hsqrt : sqrt.Faithful) {data : List ℚ} (hne : data ≠ []) :
    pstdev sqrt data = 0 ↔ ∀ r ∈ data, r = mean data := by
  have hpos : (0 : ℚ) < data.length := by
    have := List.length_pos_iff.2 hne
    exact_mod_cast this
  rw [pstdev, hsqrt _ (div_nonneg (sum_map_sq_nonneg _ _) hpos.le), div_eq_zero_iff,
    or_iff_left hpos.ne', sum_map_sq_eq_zero]

theorem mean_zipWith_sub_pav (raw : List ℚ) (decreasing : Bool) :
    mean (List.zipWith (· - ·) raw (pav raw decreasing)) = 0 := by
  have hsum : ∀ {xs ys : List ℚ}, xs.length = ys.length →
      (List.zipWith (· - ·) xs ys).sum = xs.sum - ys.sum := by
    intro xs ys h
    induction xs generalizing ys with
    | nil => simp [List.length_eq_zero_iff.1 h.symm]
    | cons x xs ih =>
      obtain ⟨y, ys, rfl⟩ := List.exists_cons_of_length_eq_add_one h.symm
      rw [List.zipWith_cons_cons, List.sum_cons, ih (by simpa using h), List.sum_cons,
        List.sum_cons]
      ring
  rw [mean, hsum (length_pav _ _).symm, sum_pav, sub_self, zero_div]

theorem zipWith_sub_eq_zero {xs ys : List ℚ} (h : xs.length = ys.length) :
    (∀ r ∈ List.zipWith (· - ·) xs ys, r = 0) ↔ xs = ys := by
  induction xs generalizing ys with
  | nil => simp [List.length_eq_zero_iff.1 h.symm]
  | cons x xs ih =>
    obtain ⟨y, ys, rfl⟩ := List.exists_cons_of_length_eq_add_one h.symm
    rw [List.zipWith_cons_cons, List.forall_mem_cons, ih (by simpa using h), sub_eq_zero,
      List.cons.injEq]

/-- The fit leaves exactly the monotone lists as they are. -/
theorem pav_eq_self_iff (raw : List ℚ) (decreasing : Bool) :
    raw = pav raw decreasing ↔ Ordered decreasing raw := by
  constructor
  · intro h
    rw [h]
    exact ordered_pav _ _
  · intro h
    have hle := sqDist_pav_add_le raw decreasing rfl h
    have hself : sqDist raw raw = 0 := by
      have : ∀ xs : List ℚ, sqDist xs xs = 0 := by
        intro xs
        induction xs with
        | nil => simp
        | cons x xs ih => simp [ih]
      exact this raw
    have := sqDist_nonneg (pav raw decreasing) raw
    exact eq_of_sqDist_le_zero (length_pav _ _).symm (by linarith)

/-- Observed values that the fit leaves without a residual spread: already monotone, or a single
zero. -/
def Flat (decreasing : Bool) (raw : List ℚ) : Prop :=
  if raw.length > 1 then Ordered decreasing raw else ∀ v ∈ raw, v = 0

theorem spread_eq_zero {sqrt : Py.Sqrt} (hsqrt : sqrt.Faithful) {raw : List ℚ} (hne : raw ≠ [])
    (decreasing : Bool) :
    spread sqrt raw (pav raw decreasing) = 0 ↔ Flat decreasing raw := by
  have hlen : (List.zipWith (· - ·) raw (pav raw decreasing)).length = raw.length := by
    simp [length_pav]
  simp only [spread, Flat, hlen]
  by_cases hlong : raw.length > 1
  · have hres : List.zipWith (· - ·) raw (pav raw decreasing) ≠ [] := by
      intro h
      rw [h, List.length_nil] at hlen
      omega
    rw [if_pos hlong, if_pos hlong, pstdev_eq_zero hsqrt hres, mean_zipWith_sub_pav,
      zipWith_sub_eq_zero (length_pav _ _).symm, pav_eq_self_iff]
  · obtain ⟨v, rfl⟩ : ∃ v, raw = [v] := by
      rw [← List.length_eq_one_iff]
      have := List.length_pos_iff.2 hne
      omega
    simp

/-- The standard error vanishes exactly when the samples agree. -/
theorem standardError_eq_zero {sqrt : Py.Sqrt} (hsqrt : sqrt.Faithful) {samples : List ℚ}
    (hlen : 2 ≤ samples.length) :
    standardError sqrt samples = 0 ↔ ∀ a ∈ samples, ∀ b ∈ samples, a = b := by
  have hn : (2 : ℚ) ≤ samples.length := by exact_mod_cast hlen
  have hroot : sqrt.fn samples.length ≠ 0 := by
    rw [Ne, hsqrt _ (by linarith)]
    linarith
  rw [standardError, div_eq_zero_iff, or_iff_left hroot, stdev,
    hsqrt _ (div_nonneg (sum_map_sq_nonneg _ _) (by linarith)), div_eq_zero_iff,
    or_iff_left (by linarith), sum_map_sq_eq_zero]
  constructor
  · intro h a ha b hb
    rw [h a ha, h b hb]
  · intro h r hr
    have hconst : samples = List.replicate samples.length r :=
      List.eq_replicate_iff.2 ⟨rfl, fun b hb => h b hb r hr⟩
    have : (samples.length : ℚ) ≠ 0 := by linarith
    rw [mean]
    conv_rhs => rw [hconst]
    rw [List.sum_replicate, nsmul_eq_mul, List.length_replicate, mul_div_cancel_left₀ _ this]

/-! ### Where the half-widths come from -/

/-- The half-widths of `fit_monotonic`: the residual spread at every knot. -/
def fitHalfWidths (sqrt : Py.Sqrt) (raw : List ℚ) (decreasing : Bool) : List ℚ :=
  raw.map fun _ => spread sqrt raw (pav raw decreasing)

theorem zipWith_map_const {xs ys : List ℚ} (h : xs.length = ys.length) (f : ℚ → ℚ → ℚ) (k : ℚ) :
    List.zipWith f xs (ys.map fun _ => k) = xs.map fun x => f x k := by
  induction xs generalizing ys with
  | nil => simp
  | cons x xs ih =>
    obtain ⟨y, ys, rfl⟩ := List.exists_cons_of_length_eq_add_one h.symm
    simp only [List.map_cons, List.zipWith_cons_cons, ih (by simpa using h)]

theorem fitOrdered_width (sqrt : Py.Sqrt) (samples : List (ℚ × ℚ)) (direction : String)
    (confidence : ℚ) :
    Width confidence (fitHalfWidths sqrt (samples.map Prod.snd) (direction == "lower"))
      (fitOrdered sqrt samples direction confidence) where
  length_eq := by simp [fitHalfWidths, fitOrdered, length_pav]
  nonneg k hk := by
    obtain ⟨-, -, rfl⟩ := List.mem_map.1 hk
    exact spread_nonneg _ _ _
  lower_eq := by
    rw [fitHalfWidths, zipWith_map_const (by simp [fitOrdered, length_pav])]
    rfl
  upper_eq := by
    rw [fitHalfWidths, zipWith_map_const (by simp [fitOrdered, length_pav])]
    rfl

theorem addSample_eq_update (x value : ℚ) (grouped : List (ℚ × List ℚ)) :
    addSample x value grouped = Py.Dict.update x (fun old => old.getD [] ++ [value]) grouped := by
  induction grouped with
  | nil => rfl
  | cons level grouped ih =>
    obtain ⟨y, values⟩ := level
    rw [addSample, Py.Dict.update, ih]
    rfl

/-- Every abscissa has one group. -/
theorem nodup_groupedRows {xKey yKey : String} {rows : List Items} {grouped : List (ℚ × List ℚ)}
    (h : groupedRows xKey yKey rows = .ok grouped) : (grouped.map Prod.fst).Nodup := by
  have h₀ : (([] : List (ℚ × List ℚ)).map Prod.fst).Nodup := by simp
  refine Py.fold_invariant (P := fun g : List (ℚ × List ℚ) => (g.map Prod.fst).Nodup)
    (fun g row g' hg hstep => ?_) h₀ h
  obtain ⟨sample, -, rfl⟩ := Py.map_eq_ok.1 hstep
  cases sample with
  | none => exact hg
  | some sample =>
    obtain ⟨x, value⟩ := sample
    change ((addSample x value g).map Prod.fst).Nodup
    rw [addSample_eq_update]
    exact Py.Dict.nodup_keys_update _ _ hg

theorem usableLevels_spec {grouped : List (ℚ × List ℚ)} (hnd : (grouped.map Prod.fst).Nodup)
    (minSamples : ℤ) :
    (∀ level ∈ usableLevels minSamples grouped,
        grouped.lookup level.1 = some level.2 ∧ minSamples ≤ level.2.length) ∧
      (usableLevels minSamples grouped).Pairwise fun a b => a.1 ≤ b.1 := by
  constructor
  · intro level hlevel
    obtain ⟨hmem, hlen⟩ := List.mem_filter.1 hlevel
    exact ⟨Py.Dict.lookup_of_mem hnd ((List.mem_insertionSort _).1 hmem), of_decide_eq_true hlen⟩
  · have : Std.Total (α := ℚ × List ℚ) fun a b => a.1 ≤ b.1 := ⟨fun a b => le_total a.1 b.1⟩
    have : IsTrans (ℚ × List ℚ) fun a b => a.1 ≤ b.1 := ⟨fun _ _ _ => le_trans⟩
    exact (List.pairwise_insertionSort _ _).filter _

/-- The samples of the fit are the levels' means, already in order. -/
theorem ordered_levels {levels : List (ℚ × List ℚ)} (h : levels.Pairwise fun a b => a.1 ≤ b.1) :
    ordered (levels.map levelObservation) = levels.map fun level => (level.1, mean level.2) := by
  have hmap : ((levels.map levelObservation).map fun item => (item.x.toRat, item.value.toRat)) =
      levels.map fun level => (level.1, mean level.2) := by
    simp [levelObservation, Function.comp_def, Py.Float.toRat]
  rw [ordered, hmap]
  refine List.Pairwise.insertionSort_eq ?_
  rw [List.pairwise_map]
  exact h

/-- The half-widths of `fit_response_table`: the larger of the residual spread of the level means
and the standard error inside the level. -/
def tableHalfWidths (sqrt : Py.Sqrt) (levels : List (ℚ × List ℚ)) (decreasing : Bool) : List ℚ :=
  let raw := levels.map fun level => mean level.2
  levels.map fun level => max (spread sqrt raw (pav raw decreasing)) (standardError sqrt level.2)

/-- The loop over the knots reads each level's own samples. -/
theorem map_zip_levels {grouped levels : List (ℚ × List ℚ)}
    (hlookup : ∀ level ∈ levels, grouped.lookup level.1 = some level.2) {values : List ℚ}
    (hlen : values.length = levels.length) (bound : ℚ → ℚ) (combine : List ℚ → ℚ → ℚ → ℚ) :
    ((((levels.map Prod.fst).zip values).zip (values.map bound)).map fun ((x, fitted), limit) =>
        combine ((grouped.lookup x).getD []) fitted limit) =
      List.zipWith (fun fitted level => combine level.2 fitted (bound fitted)) values levels := by
  induction levels generalizing values with
  | nil => simp [List.length_eq_zero_iff.1 hlen]
  | cons level levels ih =>
    obtain ⟨v, values, rfl⟩ := List.exists_cons_of_length_eq_add_one hlen
    rw [List.forall_mem_cons] at hlookup
    simp only [List.map_cons, List.zip_cons_cons, List.zipWith_cons_cons, hlookup.1,
      Option.getD_some, ih hlookup.2 (by simpa using hlen)]

theorem max_zero_min_sub {v z a b : ℚ} (hz : 0 ≤ z) :
    max 0 (min (max 0 (v - z * a)) (v - z * b)) = max 0 (v - z * max a b) := by
  rw [max_min_distrib_left, max_eq_right (le_max_left _ _), ← max_min_distrib_left, mul_max_of_nonneg _ _ hz,
    min_sub_sub_left]

theorem max_add_add {v z a b : ℚ} (hz : 0 ≤ z) :
    max (v + z * a) (v + z * b) = v + z * max a b := by
  rw [max_add_add_left, mul_max_of_nonneg _ _ hz]

/-- The table's bounds are the fitted values with the larger of the two half-widths. -/
theorem widenBounds_width (sqrt : Py.Sqrt) {grouped levels : List (ℚ × List ℚ)}
    (hlookup : ∀ level ∈ levels, grouped.lookup level.1 = some level.2)
    (direction : String) (confidence : ℚ) :
    Width confidence (tableHalfWidths sqrt levels (direction == "lower"))
      (widenBounds sqrt confidence grouped
        (fitOrdered sqrt (levels.map fun level => (level.1, mean level.2)) direction confidence)) := by
  have hz := (zScore_pos confidence).le
  have hlen : (pav (levels.map fun level => mean level.2) (direction == "lower")).length =
      levels.length := by simp [length_pav]
  refine ⟨?_, ?_, ?_, ?_⟩
  · simp [tableHalfWidths, widenBounds, fitOrdered, length_pav]
  · intro k hk
    obtain ⟨level, -, rfl⟩ := List.mem_map.1 hk
    exact le_max_of_le_left (spread_nonneg _ _ _)
  · have := map_zip_levels hlookup hlen
      (fun v => max 0 (v - zScore confidence * spread sqrt (levels.map fun level => mean level.2)
        (pav (levels.map fun level => mean level.2) (direction == "lower"))))
      (fun samples fitted fitLow =>
        max 0 (min fitLow (fitted - zScore confidence * standardError sqrt samples)))
    simp only [max_zero_min_sub hz] at this
    simpa [widenBounds, fitOrdered, tableHalfWidths, List.zipWith_map_right, Function.comp_def]
      using this
  · have := map_zip_levels hlookup hlen
      (fun v => v + zScore confidence * spread sqrt (levels.map fun level => mean level.2)
        (pav (levels.map fun level => mean level.2) (direction == "lower")))
      (fun samples fitted fitHigh =>
        max fitHigh (fitted + zScore confidence * standardError sqrt samples))
    simp only [max_add_add hz] at this
    simpa [widenBounds, fitOrdered, tableHalfWidths, List.zipWith_map_right, Function.comp_def]
      using this

/-! ### Confidence levels -/

/-- A confidence level in hundredths, as `round(confidence, 2)` takes it. -/
def hundredths (confidence : ℚ) : ℤ := Py.roundHalfEven (confidence * 100)

/-- The step from `c₁` to `c₂` that lowers the quantile: from below 0.90 to 0.90, or from 0.99 to
beyond it. -/
def Narrows (c₁ c₂ : ℚ) : Prop :=
  hundredths c₁ < 90 ∧ hundredths c₂ = 90 ∨ hundredths c₁ = 99 ∧ 99 < hundredths c₂

instance (c₁ c₂ : ℚ) : Decidable (Narrows c₁ c₂) := inferInstanceAs (Decidable (_ ∨ _))

theorem zScore_le_iff {c₁ c₂ : ℚ} (hle : c₁ ≤ c₂) : zScore c₁ ≤ zScore c₂ ↔ ¬ Narrows c₁ c₂ := by
  have hmono : hundredths c₁ ≤ hundredths c₂ :=
    Py.roundHalfEven_mono (mul_le_mul_of_nonneg_right hle (by norm_num))
  have hz : ∀ c, zScore c = if hundredths c = 90 then 1645 / 1000
      else if hundredths c = 99 then 2576 / 1000 else 1960 / 1000 := by
    intro c
    change (if hundredths c = 90 then _ else if hundredths c = 95 then _ else _) = _
    by_cases h95 : hundredths c = 95
    · norm_num [h95]
    · rw [if_neg h95]
      rfl
  rw [hz c₁, hz c₂, Narrows]
  split_ifs <;> norm_num <;> omega

/-! ### When confidence widens -/

theorem fitHalfWidths_eq_zero {sqrt : Py.Sqrt} (hsqrt : sqrt.Faithful) {raw : List ℚ}
    (hne : raw ≠ []) (decreasing : Bool) :
    (∀ k ∈ fitHalfWidths sqrt raw decreasing, k = 0) ↔ Flat decreasing raw := by
  obtain ⟨v, hv⟩ := List.exists_mem_of_ne_nil raw hne
  rw [← spread_eq_zero hsqrt hne, fitHalfWidths, List.forall_mem_map]
  exact ⟨fun h => h v hv, fun h _ _ => h⟩

/-- Levels without any width: their means are already monotone and their samples agree. -/
def FlatTable (decreasing : Bool) (levels : List (ℚ × List ℚ)) : Prop :=
  Ordered decreasing (levels.map fun level => mean level.2) ∧
    ∀ level ∈ levels, ∀ a ∈ level.2, ∀ b ∈ level.2, a = b

theorem standardError_nonneg (sqrt : Py.Sqrt) (samples : List ℚ) :
    0 ≤ standardError sqrt samples := div_nonneg (sqrt.nonneg _) (sqrt.nonneg _)

theorem tableHalfWidths_eq_zero {sqrt : Py.Sqrt} (hsqrt : sqrt.Faithful)
    {levels : List (ℚ × List ℚ)} (hlong : 2 ≤ levels.length)
    (hsamples : ∀ level ∈ levels, 2 ≤ level.2.length) (decreasing : Bool) :
    (∀ k ∈ tableHalfWidths sqrt levels decreasing, k = 0) ↔ FlatTable decreasing levels := by
  set raw := levels.map fun level => mean level.2 with hraw
  have hlen : raw.length = levels.length := by simp [hraw]
  have hne : raw ≠ [] := by
    intro h
    rw [h, List.length_nil] at hlen
    omega
  have hflat : Flat decreasing raw ↔ Ordered decreasing raw := by
    rw [Flat, if_pos (by omega)]
  have hmax : ∀ {a b : ℚ}, 0 ≤ a → 0 ≤ b → (max a b = 0 ↔ a = 0 ∧ b = 0) := by
    intro a b ha hb
    constructor
    · intro h
      exact ⟨le_antisymm (h ▸ le_max_left a b) ha, le_antisymm (h ▸ le_max_right a b) hb⟩
    · rintro ⟨rfl, rfl⟩
      exact max_self 0
  obtain ⟨level₀, hlevel₀⟩ : ∃ level, level ∈ levels :=
    List.exists_mem_of_ne_nil levels fun h => by simp [h] at hlong
  rw [FlatTable, ← hraw, ← hflat, ← spread_eq_zero hsqrt hne, tableHalfWidths, List.forall_mem_map]
  have hk := fun level => hmax (spread_nonneg sqrt raw (pav raw decreasing))
    (standardError_nonneg sqrt level)
  simp only [← hraw, hk]
  constructor
  · intro h
    exact ⟨(h level₀ hlevel₀).1, fun level hl =>
      (standardError_eq_zero hsqrt (hsamples level hl)).1 (h level hl).2⟩
  · rintro ⟨h₁, h₂⟩ level hl
    exact ⟨h₁, (standardError_eq_zero hsqrt (hsamples level hl)).2 (h₂ level hl)⟩

theorem map_snd_ordered_ne_nil {observations : List Observation} (h : observations ≠ []) :
    (ordered observations).map Prod.snd ≠ [] := by
  have hlen : (ordered observations).length = observations.length := by
    rw [ordered, List.length_insertionSort, List.length_map]
  have hpos := List.length_pos_iff.2 h
  intro hnil
  rw [List.map_eq_nil_iff] at hnil
  rw [hnil, List.length_nil] at hlen
  omega

/-- What `fit_response_table` built its result from. -/
theorem fitResponseTable_eq_ok {sqrt : Py.Sqrt} {rows : List Items} {xKey yKey direction : String}
    {minSamples : ℤ} {confidence : ℚ} {fit : MonotonicFit}
    (h : fitResponseTable sqrt rows xKey yKey direction minSamples confidence = .ok fit) :
    ∃ grouped, groupedRows xKey yKey rows = .ok grouped ∧ 2 ≤ minSamples ∧
      2 ≤ (usableLevels minSamples grouped).length ∧
      (∀ level ∈ usableLevels minSamples grouped,
        grouped.lookup level.1 = some level.2 ∧ minSamples ≤ level.2.length) ∧
      fit = widenBounds sqrt confidence grouped (fitOrdered sqrt
        ((usableLevels minSamples grouped).map fun level => (level.1, mean level.2))
        direction confidence) := by
  unfold fitResponseTable valueError at h
  rw [Py.ite_error_eq_ok, Py.bind_eq_ok] at h
  obtain ⟨hmin, grouped, hgrouped, h⟩ := h
  rw [Py.ite_error_eq_ok, Py.map_eq_ok] at h
  obtain ⟨hlong, fit', hfit, rfl⟩ := h
  obtain ⟨hspec, hsorted⟩ := usableLevels_spec (nodup_groupedRows hgrouped) minSamples
  obtain ⟨-, -, -, rfl⟩ := fitMonotonic_eq_ok hfit
  exact ⟨grouped, hgrouped, by omega, by omega, hspec, by rw [ordered_levels hsorted]⟩

/-- The square root of a fraction, exact when numerator and denominator are squares. -/
def fractionSqrt : Py.Sqrt where
  fn q := (Nat.sqrt q.num.toNat : ℚ) / Nat.sqrt q.den
  nonneg _ := by positivity

theorem faithful_fractionSqrt : fractionSqrt.Faithful := by
  intro q hq
  have hden : (Nat.sqrt q.den : ℚ) ≠ 0 := by
    have := Nat.sqrt_pos.2 q.pos
    exact_mod_cast this.ne'
  have hnum := Rat.num_nonneg.2 hq
  have hzero : fractionSqrt.fn q = 0 ↔ q.num.toNat = 0 := by
    change (Nat.sqrt q.num.toNat : ℚ) / Nat.sqrt q.den = 0 ↔ _
    rw [div_eq_zero_iff, or_iff_left hden, Nat.cast_eq_zero, Nat.sqrt_eq_zero]
  rw [hzero, ← Rat.num_eq_zero]
  omega

/-- Two observations that are out of order: the fit pools them. -/
def pooledPair : List Observation := [⟨.fin 1, .fin 2⟩, ⟨.fin 2, .fin 0⟩]

end Phase8

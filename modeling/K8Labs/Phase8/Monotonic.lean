import K8Labs.Isotonic.Pooling
import K8Labs.Isotonic.Interpolation
import K8Labs.Python.Exc
import K8Labs.Python.Number
import Mathlib.Algebra.Order.Ring.Rat
import Mathlib.Data.List.Sort

/-!
# The monotonic response fitter

`research/cpu-limits/phase8/model/monotonic.py` fits a monotone step function to measured
campaign cells with the pool-adjacent-violators routine `_pav` and reads it back with linear
interpolation.

* `pav` is `_pav`.  Its block stack is kept with the newest block first; `Pooled` is the invariant
  of the back-merging loop, and `pav_isotonic` is the result: **`_pav` computes the isotonic
  least-squares regression** in both directions.
* `fitMonotonic` is `fit_monotonic` and `MonotonicFit.predict` is the reader.
  `fitMonotonic_predict` states what a reader of any fitted model gets.

Floats are exact rationals; the square root of `statistics.pstdev` is any non-negative function
(`Py.Sqrt`).
-/

namespace Phase8

open Isotonic

/-! ### Pool adjacent violators -/

/-- The `while` loop of `_pav`: `last` is the newest block, the list holds the blocks below it,
newest first.  While the block below has the larger mean, it absorbs `last`. -/
def mergeBack (last : List ℚ) : List (List ℚ) → List (List ℚ)
  | [] => [last]
  | prev :: blocks =>
    if mean prev > mean last then mergeBack (prev ++ last) blocks else last :: prev :: blocks

/-- The blocks `_pav` ends with, in the order of the values. -/
def pavBlocks (signed : List ℚ) : List (List ℚ) :=
  (signed.foldl (fun blocks value => mergeBack [value] blocks) []).reverse

/-- `_pav`. -/
def pav (values : List ℚ) (decreasing : Bool) : List ℚ :=
  let signed := if decreasing then values.map Neg.neg else values
  let fitted := expand (pavBlocks signed)
  if decreasing then fitted.map Neg.neg else fitted

/-- The invariant of the block stack after reading `read`: the blocks cover what was read, each
is heavy in front, and their means do not decrease. -/
structure Pooled (read : List ℚ) (stack : List (List ℚ)) : Prop where
  covers : stack.reverse.flatten = read
  block : ∀ b ∈ stack, IsBlock b
  sorted : (stack.map mean).Pairwise (· ≥ ·)

/-- Merging back restores the invariant. -/
theorem Pooled.mergeBack {read : List ℚ} {stack : List (List ℚ)} (h : Pooled read stack)
    {last : List ℚ} (hlast : IsBlock last) : Pooled (read ++ last) (mergeBack last stack) := by
  induction stack generalizing read last with
  | nil =>
    obtain rfl : read = [] := by simpa using h.covers.symm
    exact ⟨by simp [Phase8.mergeBack], by simpa [Phase8.mergeBack] using hlast,
      by simp [Phase8.mergeBack]⟩
  | cons prev blocks ih =>
    have hprev := h.block prev List.mem_cons_self
    have hs := h.sorted
    rw [List.map_cons, List.pairwise_cons] at hs
    have hcov : blocks.reverse.flatten ++ prev = read := by simpa using h.covers
    rw [Phase8.mergeBack]
    split_ifs with hgt
    · -- the block below absorbs `last`: recurse on the shorter stack
      have hbelow : Pooled blocks.reverse.flatten blocks :=
        ⟨rfl, fun b hb => h.block b (List.mem_cons_of_mem _ hb), hs.2⟩
      have := ih hbelow (hprev.append hlast hgt.le)
      rwa [← List.append_assoc, hcov] at this
    · refine ⟨by simp [← hcov], ?_, ?_⟩
      · intro b hb
        rcases List.mem_cons.1 hb with rfl | hb
        · exact hlast
        · exact h.block b hb
      · have hle : mean prev ≤ mean last := not_lt.1 hgt
        rw [List.map_cons, List.pairwise_cons]
        refine ⟨fun m hm => ?_, h.sorted⟩
        rcases List.mem_cons.1 hm with rfl | hm
        · exact hle
        · exact le_trans (hs.1 m hm) hle

/-- The invariant holds along the whole loop over the values. -/
theorem Pooled.foldl {read : List ℚ} {stack : List (List ℚ)} (h : Pooled read stack)
    (rest : List ℚ) :
    Pooled (read ++ rest) (rest.foldl (fun blocks value => Phase8.mergeBack [value] blocks) stack) := by
  induction rest generalizing read stack with
  | nil => simpa using h
  | cons v rest ih =>
    have := ih (h.mergeBack (isBlock_singleton v))
    simpa using this

theorem pooled_pavBlocks (signed : List ℚ) : Pooled signed (pavBlocks signed).reverse := by
  have h₀ : Pooled [] [] := ⟨rfl, by simp, by simp⟩
  simpa [pavBlocks] using h₀.foldl signed

theorem flatten_pavBlocks (signed : List ℚ) : (pavBlocks signed).flatten = signed := by
  simpa using (pooled_pavBlocks signed).covers

theorem isBlock_of_mem_pavBlocks {signed b : List ℚ} (hb : b ∈ pavBlocks signed) : IsBlock b :=
  (pooled_pavBlocks signed).block b (by simpa using hb)

theorem isRegression_pavBlocks (signed : List ℚ) :
    IsRegression signed (expand (pavBlocks signed)) := by
  have hs : ((pavBlocks signed).map mean).Pairwise (· ≤ ·) := by
    have := (pooled_pavBlocks signed).sorted
    rw [List.map_reverse, List.pairwise_reverse] at this
    exact this
  have := isRegression_expand (fun b hb => isBlock_of_mem_pavBlocks hb) hs
  rwa [flatten_pavBlocks] at this

theorem sum_expand_pavBlocks (signed : List ℚ) :
    (expand (pavBlocks signed)).sum = signed.sum := by
  rw [sum_expand fun b hb => (isBlock_of_mem_pavBlocks hb).ne_nil, flatten_pavBlocks]

/-- Monotone in the requested direction. -/
def Ordered (decreasing : Bool) (ys : List ℚ) : Prop :=
  if decreasing then ys.Pairwise (· ≥ ·) else ys.Pairwise (· ≤ ·)

theorem ordered_map_neg {ys : List ℚ} : Ordered true ys ↔ (ys.map Neg.neg).Pairwise (· ≤ ·) := by
  simp [Ordered, List.pairwise_map]

theorem sum_map_neg (ys : List ℚ) : (ys.map Neg.neg).sum = -ys.sum := by
  induction ys with
  | nil => simp
  | cons y ys ih => simp [ih]; ring

theorem length_pav (values : List ℚ) (decreasing : Bool) :
    (pav values decreasing).length = values.length := by
  cases decreasing
  · exact (isRegression_pavBlocks values).length_eq
  · simpa [pav] using (isRegression_pavBlocks (values.map Neg.neg)).length_eq

theorem ordered_pav (values : List ℚ) (decreasing : Bool) :
    Ordered decreasing (pav values decreasing) := by
  cases decreasing
  · exact (isRegression_pavBlocks values).sorted
  · rw [ordered_map_neg]
    simpa [pav] using (isRegression_pavBlocks (values.map Neg.neg)).sorted

theorem sum_pav (values : List ℚ) (decreasing : Bool) :
    (pav values decreasing).sum = values.sum := by
  cases decreasing
  · exact sum_expand_pavBlocks values
  · simp only [pav, if_true, sum_map_neg, sum_expand_pavBlocks, neg_neg]

/-- Every monotone list is farther from the values by at least its distance from the fit. -/
theorem sqDist_pav_add_le (values : List ℚ) (decreasing : Bool) {ys : List ℚ}
    (hlen : ys.length = values.length) (hys : Ordered decreasing ys) :
    sqDist values (pav values decreasing) + sqDist (pav values decreasing) ys ≤
      sqDist values ys := by
  cases decreasing
  · exact (isRegression_pavBlocks values).optimal ys hlen hys
  · have := (isRegression_pavBlocks (values.map Neg.neg)).optimal (ys.map Neg.neg)
      (by simpa using hlen) (ordered_map_neg.1 hys)
    simp only [pav, if_true]
    rw [← sqDist_map_neg values, ← sqDist_map_neg _ ys, ← sqDist_map_neg values ys]
    simpa using this

/-- **`_pav` is the isotonic least-squares regression.**  For every list and each direction it
returns a list of the same length and the same total that is monotone in that direction; no
monotone list of that length is closer to the values, and none other is as close. -/
theorem pav_isotonic (values : List ℚ) (decreasing : Bool) :
    (pav values decreasing).length = values.length ∧
      Ordered decreasing (pav values decreasing) ∧
      (pav values decreasing).sum = values.sum ∧
      ∀ ys : List ℚ, ys.length = values.length → Ordered decreasing ys →
        sqDist values (pav values decreasing) ≤ sqDist values ys ∧
          (sqDist values ys ≤ sqDist values (pav values decreasing) →
            ys = pav values decreasing) := by
  refine ⟨length_pav _ _, ordered_pav _ _, sum_pav _ _, fun ys hlen hys => ?_⟩
  have h := sqDist_pav_add_le values decreasing hlen hys
  have h₀ := sqDist_nonneg (pav values decreasing) ys
  refine ⟨by linarith, fun hle => ?_⟩
  exact (eq_of_sqDist_le_zero (hlen.trans (length_pav _ _).symm).symm (by linarith)).symm

/-! ### Fitting -/

/-- One measured cell: the abscissa and the response. -/
structure Observation where
  x : Py.Float
  value : Py.Float

/-- A fitted model: the knots and the bounds at each knot. -/
structure MonotonicFit where
  direction : String
  xMin : ℚ
  xMax : ℚ
  xs : List ℚ
  values : List ℚ
  lower : List ℚ
  upper : List ℚ
  sampleCount : ℕ
  deriving DecidableEq

/-- The normal quantile of a confidence level rounded to two digits; 1.96 off the table. -/
def zScore (confidence : ℚ) : ℚ :=
  if Py.roundHalfEven (confidence * 100) = 90 then 1645 / 1000
  else if Py.roundHalfEven (confidence * 100) = 95 then 1960 / 1000
  else if Py.roundHalfEven (confidence * 100) = 99 then 2576 / 1000
  else 1960 / 1000

/-- `statistics.pstdev`. -/
def pstdev (sqrt : Py.Sqrt) (data : List ℚ) : ℚ :=
  sqrt.fn ((data.map fun r => (r - mean data) ^ 2).sum / data.length)

/-- The residual spread; five percent of the value when there is only one. -/
def spread (sqrt : Py.Sqrt) (raw values : List ℚ) : ℚ :=
  let residuals := List.zipWith (· - ·) raw values
  if residuals.length > 1 then pstdev sqrt residuals else |raw.headD 0| * (5 / 100)

/-- The model `fit_monotonic` builds from the samples it accepted, sorted by abscissa. -/
def fitOrdered (sqrt : Py.Sqrt) (ordered : List (ℚ × ℚ)) (direction : String) (confidence : ℚ) :
    MonotonicFit :=
  let raw := ordered.map Prod.snd
  let values := pav raw (direction == "lower")
  let margin := zScore confidence * spread sqrt raw values
  { direction := direction
    xMin := (ordered.head?.map Prod.fst).getD 0
    xMax := (ordered.getLast?.map Prod.fst).getD 0
    xs := ordered.map Prod.fst
    values := values
    lower := values.map fun value => max 0 (value - margin)
    upper := values.map fun value => value + margin
    sampleCount := 0 }

/-- The samples of finite observations, sorted by abscissa as `sorted` does. -/
def ordered (observations : List Observation) : List (ℚ × ℚ) :=
  (observations.map fun item => (item.x.toRat, item.value.toRat)).insertionSort
    fun a b => a.1 ≤ b.1

/-- `fit_monotonic`.  The source sorts before it checks finiteness; the check does not depend on
the order. -/
def fitMonotonic (sqrt : Py.Sqrt) (observations : List Observation) (direction : String)
    (confidence : ℚ) : Except Py.Exc MonotonicFit :=
  if direction ≠ "lower" ∧ direction ≠ "higher" then
    Py.valueError "direction must be lower or higher"
  else if observations = [] then
    Py.valueError "at least one observation is required"
  else if ¬ (1 / 2 < confidence ∧ confidence < 1) then
    Py.valueError "confidence must be between 0.5 and 1"
  else if observations.any fun item => !item.x.isFinite || !item.value.isFinite then
    Py.valueError "observations must be finite"
  else if ((ordered observations).zip (ordered observations).tail).any
      fun (left, right) => decide (right.1 ≤ left.1) then
    Py.valueError "x values must be strictly increasing"
  else
    .ok (fitOrdered sqrt (ordered observations) direction confidence)

/-- Why `predict` refuses an argument. -/
inductive PredictError where
  /-- `ValueError`: the argument lies outside the measured range. -/
  | outside (x xMin xMax : ℚ)
  /-- `IndexError`: a knot without a value. -/
  | noValue
  /-- `AssertionError`: no segment contains the argument. -/
  | interpolationFailed
  deriving DecidableEq

/-- `MonotonicFit.predict`. -/
def MonotonicFit.predict (fit : MonotonicFit) (x : ℚ) : Except PredictError ℚ :=
  if x < fit.xMin ∨ x > fit.xMax then .error (.outside x fit.xMin fit.xMax)
  else if x ∈ fit.xs then
    match fit.values[fit.xs.idxOf x]? with
    | some value => .ok value
    | none => .error .noValue
  else
    match onSegments (fit.xs.zip fit.values) x with
    | some value => .ok value
    | none => .error .interpolationFailed

/-! ### Reading a fitted model -/

theorem zScore_nonneg (confidence : ℚ) : 0 ≤ zScore confidence := by
  unfold zScore
  split_ifs <;> norm_num

theorem spread_nonneg (sqrt : Py.Sqrt) (raw values : List ℚ) : 0 ≤ spread sqrt raw values := by
  simp only [spread]
  split_ifs
  · exact sqrt.nonneg _
  · positivity

theorem isChain_of_zip_tail {l : List (ℚ × ℚ)}
    (h : ¬ (l.zip l.tail).any fun (left, right) => decide (right.1 ≤ left.1)) :
    l.IsChain fun a b => a.1 < b.1 := by
  induction l with
  | nil => exact .nil
  | cons a l ih =>
    cases l with
    | nil => exact .singleton a
    | cons b l =>
      simp only [List.tail_cons, List.zip_cons_cons, List.any_cons, Bool.or_eq_true,
        decide_eq_true_eq, not_or, not_le] at h
      exact List.isChain_cons_cons.2 ⟨h.1, ih h.2⟩

/-- What `fit_monotonic` checked of the samples it accepted. -/
theorem fitMonotonic_eq_ok {sqrt : Py.Sqrt} {observations : List Observation} {direction : String}
    {confidence : ℚ} {fit : MonotonicFit}
    (h : fitMonotonic sqrt observations direction confidence = .ok fit) :
    (direction = "lower" ∨ direction = "higher") ∧ observations ≠ [] ∧
      (ordered observations).IsChain (fun a b => a.1 < b.1) ∧
      fit = fitOrdered sqrt (ordered observations) direction confidence := by
  unfold fitMonotonic Py.valueError at h
  split_ifs at h with hd hne hc hfin hinc
  cases h
  exact ⟨by tauto, hne, isChain_of_zip_tail hinc, rfl⟩

theorem lookup_zip {xs vs : List ℚ} (hlen : xs.length = vs.length) (x : ℚ) :
    (xs.zip vs).lookup x = if x ∈ xs then vs[xs.idxOf x]? else none := by
  induction xs generalizing vs with
  | nil => simp
  | cons a xs ih =>
    obtain ⟨v, vs, rfl⟩ := List.exists_cons_of_length_eq_add_one hlen.symm
    rw [List.zip_cons_cons, List.lookup_cons, ih (by simpa using hlen)]
    by_cases hxa : x = a
    · simp [hxa]
    · have : (x == a) = false := by simpa using hxa
      simp [this, hxa, List.idxOf_cons_ne _ (Ne.symm hxa)]

/-- Inside the range, `predict` is interpolation over the knots. -/
theorem predict_eq_ok_iff {fit : MonotonicFit} (hlen : fit.xs.length = fit.values.length) {x v : ℚ} :
    fit.predict x = .ok v ↔
      fit.xMin ≤ x ∧ x ≤ fit.xMax ∧ interpolate (fit.xs.zip fit.values) x = some v := by
  unfold MonotonicFit.predict interpolate
  rw [lookup_zip hlen]
  by_cases hr : x < fit.xMin ∨ x > fit.xMax
  · rw [if_pos hr]
    simp only [reduceCtorEq, false_iff, not_and]
    intro h₁ h₂
    rcases hr with hr | hr
    · exact absurd hr (not_lt.2 h₁)
    · exact absurd hr (not_lt.2 h₂)
  · rw [if_neg hr]
    push Not at hr
    simp only [hr.1, hr.2, true_and]
    by_cases hx : x ∈ fit.xs
    · have hi : fit.xs.idxOf x < fit.values.length := hlen ▸ List.idxOf_lt_length_iff.2 hx
      simp [hx, List.getElem?_eq_getElem hi]
    · rw [if_neg hx, if_neg hx]
      cases onSegments (fit.xs.zip fit.values) x <;> simp

theorem pairwise_ordered {l : List (ℚ × ℚ)} (h : l.IsChain fun a b => a.1 < b.1) :
    (l.map Prod.fst).Pairwise (· < ·) := by
  have : IsTrans (ℚ × ℚ) fun a b => a.1 < b.1 := ⟨fun _ _ _ h₁ h₂ => h₁.trans h₂⟩
  rw [List.pairwise_map]
  exact List.isChain_iff_pairwise.1 h

/-- The knots of a fitted model are directed. -/
theorem directed_zip_pav {xs raw : List ℚ} (hlen : xs.length = raw.length)
    (hxs : xs.Pairwise (· < ·)) (decreasing : Bool) :
    DirectedKnots decreasing (xs.zip (pav raw decreasing)) := by
  have hl : (pav raw decreasing).length = xs.length := (length_pav _ _).trans hlen.symm
  have hord := ordered_pav raw decreasing
  unfold DirectedKnots Ascending
  cases decreasing
  · simp only [Bool.false_eq_true, if_false]
    rw [List.pairwise_iff_getElem] at hxs ⊢
    rw [Ordered, if_neg (by simp), List.pairwise_iff_getElem] at hord
    intro i j hi hj hij
    simp only [List.length_zip, lt_min_iff] at hi hj
    simp only [List.getElem_zip]
    exact ⟨hxs i j hi.1 hj.1 hij, hord i j hi.2 hj.2 hij⟩
  · simp only [if_true, mirror]
    rw [List.pairwise_map]
    rw [List.pairwise_iff_getElem] at hxs ⊢
    rw [Ordered, if_pos rfl, List.pairwise_iff_getElem] at hord
    intro i j hi hj hij
    simp only [List.length_zip, lt_min_iff] at hi hj
    simp only [List.getElem_zip, neg_le_neg_iff]
    exact ⟨hxs i j hi.1 hj.1 hij, hord i j hi.2 hj.2 hij⟩

/-- The shape of a model fitted to accepted samples. -/
structure MonotonicFit.Fitted (fit : MonotonicFit) (observations : List Observation) : Prop where
  direction_eq : fit.direction = "lower" ∨ fit.direction = "higher"
  /-- The knots are the sample abscissae, strictly increasing. -/
  perm : fit.xs.Perm (observations.map fun item => item.x.toRat)
  increasing : fit.xs.Pairwise (· < ·)
  length_eq : fit.xs.length = fit.values.length
  directed : DirectedKnots (fit.direction == "lower") (fit.xs.zip fit.values)
  head : fit.xs.head? = some fit.xMin
  last : fit.xs.getLast? = some fit.xMax
  bounds : ∃ margin, 0 ≤ margin ∧ fit.lower = fit.values.map (fun v => max 0 (v - margin)) ∧
    fit.upper = fit.values.map fun v => v + margin

theorem fitted_of_fitMonotonic {sqrt : Py.Sqrt} {observations : List Observation}
    {direction : String} {confidence : ℚ} {fit : MonotonicFit}
    (h : fitMonotonic sqrt observations direction confidence = .ok fit) :
    fit.Fitted observations := by
  obtain ⟨hd, hne, hchain, rfl⟩ := fitMonotonic_eq_ok h
  have hperm : (ordered observations).Perm
      (observations.map fun item => (item.x.toRat, item.value.toRat)) := List.perm_insertionSort _ _
  have hne' : ordered observations ≠ [] := by
    intro hnil
    rw [hnil, List.nil_perm, List.map_eq_nil_iff] at hperm
    exact hne hperm
  have hmargin := mul_nonneg (zScore_nonneg confidence) (spread_nonneg sqrt
    ((ordered observations).map Prod.snd) (pav ((ordered observations).map Prod.snd)
      (direction == "lower")))
  refine ⟨hd, ?_, pairwise_ordered hchain, by simp [fitOrdered, length_pav],
    directed_zip_pav (by simp) (pairwise_ordered hchain) _, ?_, ?_, _, hmargin, rfl, rfl⟩
  · simpa [fitOrdered, Function.comp_def] using hperm.map Prod.fst
  · simp [fitOrdered, List.head?_eq_some_head hne']
  · simp [fitOrdered, List.getLast?_eq_some_getLast hne']

namespace MonotonicFit.Fitted

variable {fit : MonotonicFit} {observations : List Observation} (h : fit.Fitted observations)
include h

/-- The first and the last knot carry the ends of the range. -/
theorem exists_knots : ∃ p knots, fit.xs.zip fit.values = p :: knots ∧ p.1 = fit.xMin ∧
    ((p :: knots).getLast (List.cons_ne_nil _ _)).1 = fit.xMax := by
  have hfst : (fit.xs.zip fit.values).map Prod.fst = fit.xs := List.map_fst_zip h.length_eq.le
  cases hz : fit.xs.zip fit.values with
  | nil =>
    rw [hz, List.map_nil] at hfst
    have := h.head
    simp [← hfst] at this
  | cons p knots =>
    rw [hz] at hfst
    refine ⟨p, knots, rfl, by simpa [← hfst] using h.head, ?_⟩
    have := h.last
    rw [← hfst, List.getLast?_map, List.getLast?_eq_some_getLast (List.cons_ne_nil _ _)] at this
    simpa using this

/-- `predict` is interpolation over the knots. -/
theorem predict_iff {x v : ℚ} :
    fit.predict x = .ok v ↔ interpolate (fit.xs.zip fit.values) x = some v := by
  rw [predict_eq_ok_iff h.length_eq]
  refine ⟨fun hv => hv.2.2, fun hv => ?_⟩
  obtain ⟨p, knots, hk, hmin, hmax⟩ := h.exists_knots
  have hdir := h.directed
  rw [hk] at hdir hv
  obtain ⟨h₁, h₂⟩ := (hdir.isSome_iff x).1 (by rw [hv]; rfl)
  exact ⟨hmin ▸ h₁, hmax ▸ h₂, hk ▸ hv⟩

theorem predict_defined (x : ℚ) :
    (∃ v, fit.predict x = .ok v) ↔ fit.xMin ≤ x ∧ x ≤ fit.xMax := by
  obtain ⟨p, knots, hk, hmin, hmax⟩ := h.exists_knots
  have hdir := h.directed
  rw [hk] at hdir
  simp only [h.predict_iff, hk, ← Option.isSome_iff_exists, hdir.isSome_iff x, hmin, hmax]

theorem predict_knot {i : ℕ} {x v : ℚ} (hx : fit.xs[i]? = some x) (hv : fit.values[i]? = some v) :
    fit.predict x = .ok v := by
  refine h.predict_iff.2 (h.directed.knot (p := (x, v)) (List.mem_of_getElem? (i := i) ?_))
  rw [List.getElem?_zip_eq_some]
  exact ⟨hx, hv⟩

theorem predict_mono {x y v w : ℚ} (hxy : x ≤ y) (hv : fit.predict x = .ok v)
    (hw : fit.predict y = .ok w) : if fit.direction == "lower" then w ≤ v else v ≤ w :=
  h.directed.mono hxy (h.predict_iff.1 hv) (h.predict_iff.1 hw)

/-- Between two knots, the prediction lies between their values, in either direction. -/
theorem predict_between {x y t v w u : ℚ} (hxt : x ≤ t) (hty : t ≤ y)
    (hv : fit.predict x = .ok v) (hw : fit.predict y = .ok w) (hu : fit.predict t = .ok u) :
    min v w ≤ u ∧ u ≤ max v w := by
  have h₁ := h.predict_mono hxt hv hu
  have h₂ := h.predict_mono hty hu hw
  split_ifs at h₁ h₂
  · exact ⟨min_le_of_right_le h₂, le_max_of_le_left h₁⟩
  · exact ⟨min_le_of_left_le h₁, le_max_of_le_right h₂⟩

theorem predict_bounds {i : ℕ} {x lo hi v : ℚ} (hx : fit.xs[i]? = some x)
    (hlo : fit.lower[i]? = some lo) (hhi : fit.upper[i]? = some hi)
    (hv : fit.values[i]? = some v) (hnn : 0 ≤ v) :
    ∃ p, fit.predict x = .ok p ∧ lo ≤ p ∧ p ≤ hi := by
  obtain ⟨margin, hm, hl, hu⟩ := h.bounds
  rw [hl, List.getElem?_map, hv, Option.map_some, Option.some.injEq] at hlo
  rw [hu, List.getElem?_map, hv, Option.map_some, Option.some.injEq] at hhi
  refine ⟨v, h.predict_knot hx hv, ?_, ?_⟩
  · rw [← hlo]
    exact max_le hnn (by linarith)
  · linarith

/-- The measured range is that of the samples. -/
theorem range_eq : (∃ item ∈ observations, item.x.toRat = fit.xMin) ∧
    (∃ item ∈ observations, item.x.toRat = fit.xMax) ∧
    ∀ item ∈ observations, fit.xMin ≤ item.x.toRat ∧ item.x.toRat ≤ fit.xMax := by
  have hmem : ∀ x, x ∈ fit.xs ↔ ∃ item ∈ observations, item.x.toRat = x := fun x => by
    rw [h.perm.mem_iff, List.mem_map]
  refine ⟨(hmem _).1 (List.mem_of_head? h.head), (hmem _).1 (List.mem_of_getLast? h.last),
    fun item hi => ?_⟩
  -- a sample's abscissa is a knot, and the knots lie where `predict` is defined
  obtain ⟨i, hlt, hx⟩ := List.getElem_of_mem ((hmem _).2 ⟨item, hi, rfl⟩)
  obtain ⟨v, hv⟩ : ∃ v, fit.values[i]? = some v :=
    ⟨_, List.getElem?_eq_getElem (h.length_eq ▸ hlt)⟩
  have := h.predict_knot (List.getElem?_eq_getElem hlt) hv
  rw [hx] at this
  exact (h.predict_defined _).1 ⟨_, this⟩

end MonotonicFit.Fitted

/-- The square root rounded down to a multiple of `1 / 1000`. -/
def milliSqrt : Py.Sqrt where
  fn q := (Nat.sqrt ((q * 10 ^ 6).floor.toNat) : ℚ) / 1000
  nonneg _ := by positivity

end Phase8

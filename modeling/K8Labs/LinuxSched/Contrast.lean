import K8Labs.Python.Maths
import Mathlib.Algebra.Order.Ring.Rat
import Mathlib.Data.Nat.Sqrt

/-!
# Paired contrasts

What `research/linux-sched/analysis/sched_analysis.py` and `factorial_analysis.py` do alike: one
contrast compares an arm with the control over the blocks they share.  Of its oriented log ratios
the analysis forms the mean with its t statistics (`comparison`), a bootstrap interval and, unless
the contrast is short of its frozen count, an entry to be tested (`evaluate`); the tested entries
become verdicts when the step-down has decided (`verdict`).

The two programs name a contrast by different fields, its label.
-/

namespace LinuxSched

open Py

/-! ### Records -/

/-- The decision of a verdict. -/
inductive Decision where
  | improvement
  | regression
  | equivalent
  | inconclusive
  | descriptive
  | incomplete
  deriving DecidableEq

/-- An entry of `stats`: everything needed to state a contrast. -/
structure Comparison (L K : Type) where
  label : L
  n : ℕ
  df : ℕ
  mean : K
  sd : K
  se : K
  tTwo : Extended K
  tLower : Extended K
  tUpper : Extended K
  effect : K
  descriptive : Bool
  incomplete : Bool
  deriving DecidableEq

/-- `Verdict`; an interval that is not a number is none. -/
structure Verdict (L K : Type) where
  label : L
  blocks : ℕ
  geometricMeanRatio : K
  ciLow : Option K
  ciHigh : Option K
  bootstrapLow : Option K
  bootstrapHigh : Option K
  decision : Decision
  effect : K
  descriptive : Bool
  deriving DecidableEq

/-- An entry of `skipped`. -/
structure Skipped where
  workload : String
  metric : String
  scheduler : Option String
  reason : String
  sharedBlocks : Option ℕ
  deriving DecidableEq

/-- What the first pass appends for a contrast: an entry of `skipped`, an unfinished verdict, or an
entry of `stats` with its entry of `boot`. -/
inductive Item (L K : Type) where
  | skipped (entry : Skipped)
  | incomplete (verdict : Verdict L K)
  | tested (entry : Comparison L K) (boot : K × K)

/-- `AnalysisResult`. -/
structure AnalysisResult (L K : Type) where
  verdicts : List (Verdict L K)
  skipped : List Skipped
  deriving DecidableEq

variable {L K : Type}

namespace Item

/-- `result.skipped` after the first pass. -/
def skips (items : List (Item L K)) : List Skipped :=
  items.filterMap fun
    | skipped entry => some entry
    | _ => none

/-- `result.verdicts` after the first pass. -/
def unfinished (items : List (Item L K)) : List (Verdict L K) :=
  items.filterMap fun
    | incomplete verdict => some verdict
    | _ => none

/-- `zip(stats, boot)` after the first pass. -/
def stats (items : List (Item L K)) : List (Comparison L K × (K × K)) :=
  items.filterMap fun
    | tested entry boot => some (entry, boot)
    | _ => none

end Item

/-! ### The estimator -/

/-- `_is_lower_better`, with the metrics that are so without a direction. -/
def isLowerBetter (lowerIsBetter : List String) (metric : String) (direction : Option String) :
    Bool :=
  if direction = some "lower-is-better" then true
  else if direction = some "higher-is-better" then false
  else metric ∈ lowerIsBetter

/-- `sorted(set(control) & set(values))`. -/
def sharedBlocks {V : Type} (control values : List (String × V)) : List String :=
  ((control.map Prod.fst).filter fun block => block ∈ values.map Prod.fst).insertionSort (· ≤ ·)

theorem mem_sharedBlocks {V : Type} {control values : List (String × V)} {block : String} :
    block ∈ sharedBlocks control values ↔
      block ∈ control.map Prod.fst ∧ block ∈ values.map Prod.fst := by
  rw [sharedBlocks, List.mem_insertionSort, List.mem_filter, decide_eq_true_eq]

/-- No block comes twice. -/
theorem nodup_sharedBlocks {V : Type} {control values : List (String × V)}
    (h : (control.map Prod.fst).Nodup) : (sharedBlocks control values).Nodup :=
  (List.perm_insertionSort _ _).symm.nodup (h.filter _)

/-- An item of a dictionary with string keys comes before another in `sorted(d.items())`. -/
def keyLe {V : Type} (a b : String × V) : Prop := a.1 ≤ b.1

instance {V : Type} : DecidableRel (keyLe (V := V)) :=
  fun a b => inferInstanceAs (Decidable (a.1 ≤ b.1))

section Estimator

variable [Field K] [LinearOrder K] (maths : Maths K)

/-- `_oriented_log_ratio`. -/
def orientedLogRatio (control arm : K) (lowerIsBetter : Bool) : Except Exc K :=
  if control ≤ 0 ∨ arm ≤ 0 then valueError "metric values must be strictly positive"
  else
    let ratio := arm / control
    .ok (if lowerIsBetter then -maths.log ratio else maths.log ratio)

/-- `_t`: the t statistic of a numerator.  Without any spread it is the limit. -/
def tStatistic (se numerator : K) : Extended K :=
  if 0 < se then .fin (numerator / se)
  else if 0 < numerator then ⊤
  else if numerator < 0 then ⊥
  else .fin 0

/-- The entry of a contrast, with the edges of its equivalence band. -/
def comparisonWithin (label : L) (logs : List K) (bandLow bandHigh effect : K)
    (descriptive : Bool) : Comparison L K :=
  let mean := fmean logs
  let sd := if 2 ≤ logs.length then stdev maths logs else 0
  let se := if logs.length = 0 then 0 else sd / maths.sqrt logs.length
  { label := label
    n := logs.length
    df := logs.length - 1
    mean := mean
    sd := sd
    se := se
    tTwo := tStatistic se mean
    tLower := tStatistic se (mean - bandLow)
    tUpper := tStatistic se (mean - bandHigh)
    effect := effect
    descriptive := descriptive
    incomplete := false }

/-- The entry of a contrast: the band is the ratio band `[1 - effect, 1 + effect]`. -/
def comparison (label : L) (logs : List K) (effect : K) (descriptive : Bool) : Comparison L K :=
  comparisonWithin maths label logs (maths.log (1 - effect)) (maths.log (1 + effect)) effect
    descriptive

/-- The sorted means of the bootstrap. -/
def bootstrapMeans (rng : RandRange) (seed resamples : ℕ) (logs : List K) : List K :=
  let n := logs.length
  ((List.range resamples).map fun resample =>
    fmean ((List.range n).map fun i => logs.getD (rng.draw seed n (resample * n + i)) 0))
    |>.insertionSort (· ≤ ·)

/-- The entry of `boot`. -/
def bootstrapInterval (rng : RandRange) (seed resamples : ℕ) (logs : List K) :
    Except Exc (K × K) :=
  let means := bootstrapMeans rng seed resamples logs
  match means[(means.length - 1) * 25 / 1000]?, means[(means.length - 1) * 975 / 1000]? with
  | some low, some high => do
    let low ← maths.exp low
    let high ← maths.exp high
    .ok (low, high)
  | _, _ => .error ⟨.indexError, "list index out of range"⟩

/-- The parameters of `analyse`. -/
structure Settings (K : Type) where
  rng : RandRange
  requiredBlocks : List ((String × String) × ℤ)
  alpha : K
  bootstrapResamples : ℕ
  bootstrapSeed : ℕ

/-- The first pass over one contrast with enough blocks, `_append_contrast` in the factorial
analysis. -/
def evaluate (settings : Settings K) (label : L) (workload metric : String) (logs : List K)
    (effect : K) (descriptive : Bool) : Except Exc (Item L K) :=
  if ((settings.requiredBlocks.lookup (workload, metric)).any fun wanted =>
      (logs.length : ℤ) < wanted) = true then
    (maths.exp (fmean logs)).map fun ratio => .incomplete
      { label := label
        blocks := logs.length
        geometricMeanRatio := ratio
        ciLow := none
        ciHigh := none
        bootstrapLow := none
        bootstrapHigh := none
        decision := .incomplete
        effect := effect
        descriptive := descriptive }
  else
    (bootstrapInterval maths settings.rng settings.bootstrapSeed settings.bootstrapResamples
      logs).map fun boot => .tested (comparison maths label logs effect descriptive) boot

/-! ### Decisions -/

/-- The decision of a tested contrast. -/
def classify (entry : Comparison L K) (rejectsNoEffect rejectsTost : Bool) : Decision :=
  let band := maths.log (1 + entry.effect)
  if rejectsNoEffect = true ∧ band ≤ entry.mean then .improvement
  else if rejectsNoEffect = true ∧ entry.mean ≤ -band then .regression
  else if rejectsTost = true then .equivalent
  else .inconclusive

/-- Descriptive and incomplete contrasts are not tested. -/
def isTested (entry : Comparison L K) : Bool := !entry.descriptive && !entry.incomplete

/-- All decisions: the tested contrasts take the results of the two tests in turn. -/
def decisions : List (Comparison L K) → List (Bool × Bool) → List Decision
  | [], _ => []
  | entry :: rest, results =>
    if entry.incomplete then .incomplete :: decisions rest results
    else if entry.descriptive then .descriptive :: decisions rest results
    else
      let result := results.headD (false, false)
      classify maths entry result.1 result.2 :: decisions rest results.tail

/-- The statistic of the no-effect test. -/
def noEffectScore (entry : Comparison L K) : Extended K := entry.tTwo.abs

/-- The TOST statistic: the weaker of the two one-sided tests decides. -/
def tostScore (entry : Comparison L K) : Extended K := min entry.tLower entry.tUpper.neg

theorem length_decisions (entries : List (Comparison L K)) (results : List (Bool × Bool)) :
    (decisions maths entries results).length = entries.length := by
  induction entries generalizing results with
  | nil => rfl
  | cons entry rest ih =>
    rw [decisions]
    split_ifs <;> simp [ih]

/-! ### Student-t quantiles -/

/-- `_t_ppf`. -/
def tPpf (probability : K) (degreesOfFreedom : ℕ) : Except Exc K :=
  if ¬ (0 < probability ∧ probability < 1) then valueError "probability must be in (0, 1)"
  else if degreesOfFreedom < 2 then
    valueError "Cornish-Fisher t approximation requires df >= 2"
  else
    let z := maths.normalQuantile probability
    let d : K := degreesOfFreedom
    let z2 := z * z
    let z3 := z2 * z
    let z5 := z3 * z2
    let z7 := z5 * z2
    .ok (z + (z3 + z) / (4 * d) + (5 * z5 + 16 * z3 + 3 * z) / (96 * d * d) +
      (3 * z7 + 19 * z5 + 17 * z3 - 15 * z) / (384 * d * d * d))

/-- The second pass over one contrast. -/
def verdict (alpha : K) (entry : Comparison L K) (boot : K × K) (decision : Decision) :
    Except Exc (Verdict L K) := do
  let quantile ← tPpf maths (1 - alpha / 2) entry.df
  let half := quantile * entry.se
  let ratio ← maths.exp entry.mean
  let low ← maths.exp (entry.mean - half)
  let high ← maths.exp (entry.mean + half)
  .ok
    { label := entry.label
      blocks := entry.n
      geometricMeanRatio := ratio
      ciLow := some low
      ciHigh := some high
      bootstrapLow := some boot.1
      bootstrapHigh := some boot.2
      decision := decision
      effect := entry.effect
      descriptive := entry.descriptive }

/-- `analyse` after the first pass: the step-down of the program decides the tested contrasts. -/
def conclude (holmDecisions : List (Comparison L K) → Except Exc (List Decision)) (alpha : K)
    (items : List (Item L K)) : Except Exc (AnalysisResult L K) := do
  let stats := Item.stats items
  let decided ← holmDecisions (stats.map Prod.fst)
  let verdicts ← Py.traverse (fun entry => verdict maths alpha entry.1.1 entry.1.2 entry.2)
    (stats.zip decided)
  .ok { verdicts := Item.unfinished items ++ verdicts, skipped := Item.skips items }

end Estimator

/-! ### What is reported -/

namespace Item

/-- The contrast of an item, none when it is skipped. -/
def label? : Item L K → Option L
  | skipped _ => none
  | incomplete verdict => some verdict.label
  | tested entry _ => some entry.label

theorem mem_skips {items : List (Item L K)} {entry : Skipped} :
    entry ∈ skips items ↔ skipped entry ∈ items := by
  rw [skips, List.mem_filterMap]
  constructor
  · rintro ⟨item, hitem, heq⟩
    cases item <;> simp_all
  · exact fun h => ⟨_, h, rfl⟩

/-- The contrasts that get a verdict, now or after the step-down. -/
theorem exists_label_iff {items : List (Item L K)} {label : L} :
    (∃ item ∈ items, item.label? = some label) ↔
      label ∈ (unfinished items).map Verdict.label ∨
        label ∈ (stats items).map fun entry => entry.1.label := by
  induction items with
  | nil => simp [unfinished, stats]
  | cons item items ih =>
    rw [List.exists_mem_cons_iff, ih]
    cases item with
    | skipped entry => simp [unfinished, stats, label?]
    | incomplete verdict =>
      show some verdict.label = some label ∨ _ ↔
        label ∈ verdict.label :: (unfinished items).map Verdict.label ∨ _
      rw [List.mem_cons, Option.some.injEq, eq_comm, or_assoc]
      rfl
    | tested entry boot =>
      show some entry.label = some label ∨ _ ↔
        _ ∨ label ∈ entry.label :: (stats items).map fun entry => entry.1.label
      rw [List.mem_cons, Option.some.injEq, eq_comm, or_left_comm]
      rfl

end Item

section Report

variable [Field K] [LinearOrder K] {maths : Maths K}

/-- An evaluated contrast keeps its label. -/
theorem label?_evaluate {settings : Settings K} {label : L} {workload metric : String}
    {logs : List K} {effect : K} {descriptive : Bool} {item : Item L K}
    (h : evaluate maths settings label workload metric logs effect descriptive = .ok item) :
    item.label? = some label := by
  rw [evaluate] at h
  split_ifs at h
  · obtain ⟨ratio, -, rfl⟩ := map_eq_ok.1 h
    rfl
  · obtain ⟨boot, -, rfl⟩ := map_eq_ok.1 h
    rfl

theorem label_verdict {alpha : K} {entry : Comparison L K} {boot : K × K} {decision : Decision}
    {v : Verdict L K} (h : verdict maths alpha entry boot decision = .ok v) :
    v.label = entry.label := by
  obtain ⟨_, -, h⟩ := bind_eq_ok.1 h
  obtain ⟨_, -, h⟩ := bind_eq_ok.1 h
  obtain ⟨_, -, h⟩ := bind_eq_ok.1 h
  obtain ⟨_, -, h⟩ := bind_eq_ok.1 h
  cases h
  rfl

theorem labels_verdicts {alpha : K} {entries : List ((Comparison L K × (K × K)) × Decision)}
    {verdicts : List (Verdict L K)}
    (h : List.Forall₂ (fun entry v => verdict maths alpha entry.1.1 entry.1.2 entry.2 = .ok v)
      entries verdicts) :
    verdicts.map Verdict.label = entries.map fun entry => entry.1.1.label := by
  induction h with
  | nil => rfl
  | cons hv _ ih => rw [List.map_cons, List.map_cons, ih, label_verdict hv]

/-- **The second pass loses nothing**: every unfinished or tested contrast has a verdict, every
skipped one its entry. -/
theorem conclude_reports {holmDecisions : List (Comparison L K) → Except Exc (List Decision)}
    (hlength : ∀ entries ds, holmDecisions entries = .ok ds → ds.length = entries.length)
    {alpha : K} {items : List (Item L K)} {result : AnalysisResult L K}
    (h : conclude maths holmDecisions alpha items = .ok result) :
    (∀ label, label ∈ result.verdicts.map Verdict.label ↔
      ∃ item ∈ items, item.label? = some label) ∧
    ∀ entry, entry ∈ result.skipped ↔ Item.skipped entry ∈ items := by
  obtain ⟨decided, hdecided, h⟩ := bind_eq_ok.1 h
  obtain ⟨verdicts, hverdicts, h⟩ := bind_eq_ok.1 h
  cases h
  have hl := hlength _ _ hdecided
  rw [List.length_map] at hl
  have hlabels : verdicts.map Verdict.label =
      (Item.stats items).map fun entry => entry.1.label := by
    rw [labels_verdicts (traverse_eq_ok.1 hverdicts)]
    conv_rhs => rw [← List.map_fst_zip (by omega : (Item.stats items).length ≤ decided.length),
      List.map_map]
    rfl
  refine ⟨fun label => ?_, fun entry => Item.mem_skips⟩
  rw [Item.exists_label_iff, List.map_append, List.mem_append, hlabels]

end Report

/-! ### A rough library -/

/-- Normal quantiles in the upper tail, from a table. -/
def roughQuantile (p : ℚ) : ℚ :=
  if p < 9 / 10 then 0
  else if p < 19 / 20 then 128 / 100
  else if p < 39 / 40 then 164 / 100
  else if p < 199 / 200 then 196 / 100
  else if p < 399 / 400 then 258 / 100
  else 281 / 100

/-- A library over the rationals that can be run: the logarithm and the exponential by their first
fractional approximations, which are inverse to each other, and the roots of squares. -/
def roughMaths : Maths ℚ where
  log x := 2 * (x - 1) / (x + 1)
  exp x := .ok ((2 + x) / (2 - x))
  sqrt x := Nat.sqrt x.num.toNat / Nat.sqrt x.den
  log1p x := 2 * x / (x + 2)
  lgamma _ := 0
  normalQuantile := roughQuantile
  exp_raises _ := raises_ok _

end LinuxSched

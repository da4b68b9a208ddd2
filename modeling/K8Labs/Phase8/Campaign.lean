import K8Labs.Python.Exc
import Mathlib.Data.List.FinRange
import Mathlib.Data.List.Nodup
import Mathlib.Logic.Equiv.Fin.Rotate
import Mathlib.Tactic.Linarith

/-!
# Campaign plans

`research/cpu-limits/phase8/campaign/campaign.py` lays out a factorial design: every combination of
the factor levels is one cell, the cells are run in a shuffled order, and a design beyond the budget
is refused, confirmed by the caller, or cut down to a fraction that keeps the baseline.

* `product` is `itertools.product`; `mem_product` and `nodup_product` are its two laws.
* `planCampaign` is `plan_campaign`.  `random.Random(seed).shuffle` is a parameter: a permutation of
  the positions that depends on the seed and the number of elements (`Shuffle`).
* `planCampaign_sound` is the result: **what is planned are distinct cells of the design, all of
  them in a full plan, never more trials than the budget unless confirmed, and in a fractional plan
  the baseline first and as many cells as the budget holds.**
-/

namespace Phase8

/-! ### The Cartesian product -/

section Product

variable {α : Type*}

/-- `itertools.product(*levels)`: the last factor varies fastest. -/
def product : List (List α) → List (List α)
  | [] => [[]]
  | levels :: rest => levels.flatMap fun level => (product rest).map (level :: ·)

theorem mem_product {levels : List (List α)} {values : List α} :
    values ∈ product levels ↔ List.Forall₂ (· ∈ ·) values levels := by
  induction levels generalizing values with
  | nil => simp [product]
  | cons levels rest ih =>
    simp only [product, List.mem_flatMap, List.mem_map, ih, List.forall₂_cons_right_iff]
    constructor
    · rintro ⟨level, hl, values, hv, rfl⟩
      exact ⟨level, values, hl, hv, rfl⟩
    · rintro ⟨level, values, hl, hv, rfl⟩
      exact ⟨level, hl, values, hv, rfl⟩

theorem nodup_product {levels : List (List α)} (h : ∀ l ∈ levels, l.Nodup) :
    (product levels).Nodup := by
  induction levels with
  | nil => simp [product]
  | cons levels rest ih =>
    rw [List.forall_mem_cons] at h
    rw [product, List.nodup_flatMap]
    refine ⟨fun level _ => (ih h.2).map (List.cons_injective), ?_⟩
    refine h.1.imp fun {a b} hab => ?_
    -- two blocks differ in their first level
    refine List.disjoint_left.2 ?_
    rintro values ha hb
    obtain ⟨_, -, rfl⟩ := List.mem_map.1 ha
    obtain ⟨_, -, heq⟩ := List.mem_map.1 hb
    exact hab (List.cons.inj heq).1.symm

theorem length_product (levels : List (List α)) :
    (product levels).length = (levels.map List.length).prod := by
  induction levels with
  | nil => simp [product]
  | cons levels rest ih => simp [product, List.length_flatMap, ih]

/-- The first combination takes the first level of every factor. -/
theorem head?_product {levels : List (List α)} {firsts : List α}
    (h : List.Forall₂ (fun l first => l.head? = some first) levels firsts) :
    (product levels).head? = some firsts := by
  induction h with
  | nil => rfl
  | @cons l first levels firsts hl _ ih =>
    obtain ⟨tail, rfl⟩ : ∃ tail, l = first :: tail := by
      cases l with
      | nil => simp at hl
      | cons a tail => exact ⟨tail, by simpa using hl⟩
    simp [product, ih]

end Product

/-! ### Shuffling -/

/-- `random.Random(seed).shuffle`: a permutation of the positions of a list, given by the seed and
the length. -/
def Shuffle := ℤ → (n : ℕ) → Equiv.Perm (Fin n)

/-- The list with its elements moved. -/
def Shuffle.apply {α : Type*} (shuffle : Shuffle) (seed : ℤ) (xs : List α) : List α :=
  List.ofFn fun i => xs.get (shuffle seed xs.length i)

theorem Shuffle.apply_perm {α : Type*} (shuffle : Shuffle) (seed : ℤ) (xs : List α) :
    (shuffle.apply seed xs).Perm xs := by
  have h := (shuffle seed xs.length).ofFn_comp_perm xs.get
  rwa [List.ofFn_get] at h

/-! ### The plan -/

variable {L : Type*}

/-- `Factor`. -/
structure Factor (L : Type*) where
  name : String
  levels : List L

/-- `CampaignConfig`, with the source's defaults. -/
structure CampaignConfig where
  repetitions : ℤ := 1
  seed : ℤ := 1
  budgetCap : ℤ := 64
  confirmed : Bool := false
  allowFractional : Bool := false
  secondsPerTrial : ℤ := 600
  cpuMillicoresPerTrial : ℤ := 500

/-- The design of a plan. -/
inductive Design where
  | full
  | fractional
  deriving DecidableEq

/-- The name of a design. -/
def Design.text : Design → String
  | full => "full"
  | fractional => "fractional"

/-- The preview of a plan. -/
structure Preview where
  fullTrials : ℤ
  plannedTrials : ℤ
  estimatedSeconds : ℤ
  estimatedCpuMillicoreSeconds : ℤ
  deriving DecidableEq

/-- A cell: the level of each factor under its name. -/
abbrev Cell (L : Type*) := List (String × L)

/-- `CampaignPlan`. -/
structure CampaignPlan (L : Type*) where
  design : Design
  fullCells : ℤ
  cells : List (Cell L)
  totalTrials : ℤ
  preview : Preview
  seed : ℤ
  repetitions : ℤ
  deriving DecidableEq

/-- Why a campaign is refused. -/
inductive PlanError where
  | valueError (message : String)
  /-- `BudgetExceeded`, a `ValueError` of its own. -/
  | budgetExceeded (message : String)
  deriving DecidableEq

/-- Every cell of the design, in the order of the product. -/
def allCells (factors : List (Factor L)) : List (Cell L) :=
  (product (factors.map Factor.levels)).map fun values => (factors.map Factor.name).zip values

/-- The cells a fractional design keeps: the baseline and as many others as fit. -/
def fraction (shuffle : Shuffle) (seed : ℤ) (maxCells : ℤ) (cells : List (Cell L)) : List (Cell L) :=
  cells.take 1 ++ (shuffle.apply seed (cells.drop 1)).take (maxCells - 1).toNat

/-- The order in which the cells are run: shuffled, with the baseline of a fractional design kept
first. -/
def runOrder (shuffle : Shuffle) (seed : ℤ) (design : Design) (cells : List (Cell L)) :
    List (Cell L) :=
  match design with
  | .fractional => cells.take 1 ++ shuffle.apply seed (cells.drop 1)
  | .full => shuffle.apply seed cells

/-- `plan_campaign`. -/
def planCampaign [DecidableEq L] (shuffle : Shuffle) (factors : List (Factor L))
    (config : CampaignConfig) : Except PlanError (CampaignPlan L) :=
  if config.repetitions < 1 then .error (.valueError "repetitions must be at least 1")
  else if config.budgetCap < 1 then .error (.valueError "budget_cap must be at least 1")
  else if config.secondsPerTrial < 1 ∨ config.cpuMillicoresPerTrial < 1 then
    .error (.valueError "trial resource estimates must be positive")
  else if factors.isEmpty ∨ ¬ (factors.map Factor.name).Nodup then
    .error (.valueError "factors must have unique names and cannot be empty")
  else if factors.any fun factor => factor.levels.length < 2 ∨ ¬ factor.levels.Nodup then
    .error (.valueError "each factor must have at least two unique levels")
  else
    let fullCells : ℤ := factors.foldl (fun n factor => n * factor.levels.length) 1
    let fullTrials := fullCells * config.repetitions
    let useFractional := decide (fullTrials > config.budgetCap) && config.allowFractional
    let design := if useFractional then Design.fractional else .full
    let maxCells := config.budgetCap / config.repetitions
    if useFractional ∧ maxCells < 2 then
      .error (.budgetExceeded "budget cannot fit baseline and one fractional cell")
    else
      let cells := if useFractional then fraction shuffle config.seed maxCells (allCells factors)
        else allCells factors
      let totalTrials := cells.length * config.repetitions
      if totalTrials > config.budgetCap ∧ ¬ config.confirmed then
        .error (.budgetExceeded (design.text ++ " design requires " ++ toString totalTrials ++
          " trials, above budget cap " ++ toString config.budgetCap ++
          "; explicit confirmation is required"))
      else
        .ok
          { design := design
            fullCells := fullCells
            cells := runOrder shuffle config.seed design cells
            totalTrials := totalTrials
            preview :=
              { fullTrials := fullTrials
                plannedTrials := totalTrials
                estimatedSeconds := totalTrials * config.secondsPerTrial
                estimatedCpuMillicoreSeconds :=
                  totalTrials * config.secondsPerTrial * config.cpuMillicoresPerTrial }
            seed := config.seed
            repetitions := config.repetitions }

/-! ### Cells of the design -/

/-- A cell of the design: one level of each factor, under the factor's name. -/
def IsCell (factors : List (Factor L)) (cell : Cell L) : Prop :=
  List.Forall₂ (fun factor item => item.1 = factor.name ∧ item.2 ∈ factor.levels) factors cell

/-- The baseline: the first level of each factor. -/
def IsBaseline (factors : List (Factor L)) (cell : Cell L) : Prop :=
  List.Forall₂ (fun factor item => item.1 = factor.name ∧ factor.levels.head? = some item.2)
    factors cell

/-- The factors `plan_campaign` accepts. -/
structure Accepted (factors : List (Factor L)) : Prop where
  ne_nil : factors ≠ []
  names : (factors.map Factor.name).Nodup
  levels : ∀ factor ∈ factors, 2 ≤ factor.levels.length ∧ factor.levels.Nodup

theorem isCell_iff {factors : List (Factor L)} {cell : Cell L} :
    IsCell factors cell ↔ ∃ values, List.Forall₂ (· ∈ ·) values (factors.map Factor.levels) ∧
      (factors.map Factor.name).zip values = cell := by
  induction factors generalizing cell with
  | nil => simp [IsCell, eq_comm]
  | cons factor factors ih =>
    simp only [IsCell] at ih
    simp only [IsCell, List.forall₂_cons_left_iff, ih, List.map_cons, List.forall₂_cons_right_iff]
    constructor
    · rintro ⟨⟨_, level⟩, _, ⟨rfl, hl⟩, ⟨values, hv, rfl⟩, rfl⟩
      exact ⟨level :: values, ⟨level, values, hl, hv, rfl⟩, rfl⟩
    · rintro ⟨_, ⟨level, values, hl, hv, rfl⟩, rfl⟩
      exact ⟨(factor.name, level), _, ⟨rfl, hl⟩, ⟨values, hv, rfl⟩, rfl⟩

/-- The cells are exactly the combinations of the levels. -/
theorem mem_allCells {factors : List (Factor L)} {cell : Cell L} :
    cell ∈ allCells factors ↔ IsCell factors cell := by
  simp only [allCells, List.mem_map, mem_product, isCell_iff]

theorem length_allCells (factors : List (Factor L)) :
    ((allCells factors).length : ℤ) =
      factors.foldl (fun n factor => n * (factor.levels.length : ℤ)) 1 := by
  have hfold : ∀ (n : ℤ) (fs : List (Factor L)),
      fs.foldl (fun n factor => n * (factor.levels.length : ℤ)) n =
        n * (((fs.map Factor.levels).map List.length).prod : ℕ) := by
    intro n fs
    induction fs generalizing n with
    | nil => simp
    | cons factor fs ih =>
      rw [List.foldl_cons, ih, List.map_cons, List.map_cons, List.prod_cons, Nat.cast_mul,
        mul_assoc]
  rw [hfold, allCells, List.length_map, length_product, one_mul]

theorem Accepted.nodup_allCells {factors : List (Factor L)} (h : Accepted factors) :
    (allCells factors).Nodup := by
  have hprod : (product (factors.map Factor.levels)).Nodup := by
    refine nodup_product fun l hl => ?_
    obtain ⟨factor, hf, rfl⟩ := List.mem_map.1 hl
    exact (h.levels factor hf).2
  refine List.Nodup.map_on (fun values hv values' hv' heq => ?_) hprod
  -- the names are the same, so equal cells have equal levels
  have hlen : ∀ {vs : List L}, vs ∈ product (factors.map Factor.levels) →
      vs.length = (factors.map Factor.name).length := by
    intro vs hvs
    simpa using (mem_product.1 hvs).length_eq
  have := congrArg (List.map Prod.snd) heq
  rwa [List.map_snd_zip (hlen hv).le, List.map_snd_zip (hlen hv').le] at this

theorem Accepted.head?_allCells {factors : List (Factor L)} (h : Accepted factors) :
    ∃ cell, (allCells factors).head? = some cell ∧ IsBaseline factors cell := by
  have hfirst : ∀ fs : List (Factor L), (∀ factor ∈ fs, 2 ≤ factor.levels.length) →
      ∃ firsts, List.Forall₂ (fun l first => l.head? = some first) (fs.map Factor.levels) firsts ∧
        IsBaseline fs ((fs.map Factor.name).zip firsts) := by
    intro fs hfs
    induction fs with
    | nil => exact ⟨[], .nil, .nil⟩
    | cons factor fs ih =>
      rw [List.forall_mem_cons] at hfs
      obtain ⟨firsts, h₁, h₂⟩ := ih hfs.2
      obtain ⟨first, tail, hl⟩ := List.exists_cons_of_length_pos (l := factor.levels) (by omega)
      exact ⟨first :: firsts, .cons (by simp [hl]) h₁, .cons ⟨rfl, by simp [hl]⟩ h₂⟩
  obtain ⟨firsts, h₁, h₂⟩ := hfirst factors fun factor hf => (h.levels factor hf).1
  refine ⟨_, ?_, h₂⟩
  rw [allCells, List.head?_map, head?_product h₁, Option.map_some]

/-! ### Planning -/

/-- Everything `plan_campaign` has checked and built when it returns. -/
theorem planCampaign_eq_ok [DecidableEq L] {shuffle : Shuffle} {factors : List (Factor L)}
    {config : CampaignConfig} {plan : CampaignPlan L}
    (h : planCampaign shuffle factors config = .ok plan) :
    Accepted factors ∧ 1 ≤ config.repetitions ∧
      (plan.totalTrials ≤ config.budgetCap ∨ config.confirmed = true) ∧
      (plan.design = .full ∧ plan.cells = shuffle.apply config.seed (allCells factors) ∧
          plan.totalTrials = (allCells factors).length * config.repetitions ∨
        plan.design = .fractional ∧
          config.budgetCap < (allCells factors).length * config.repetitions ∧
          2 ≤ config.budgetCap / config.repetitions ∧
          plan.cells = runOrder shuffle config.seed .fractional (fraction shuffle config.seed
            (config.budgetCap / config.repetitions) (allCells factors)) ∧
          plan.totalTrials = (fraction shuffle config.seed
            (config.budgetCap / config.repetitions) (allCells factors)).length *
              config.repetitions) := by
  unfold planCampaign at h
  dsimp only at h
  rw [← length_allCells] at h
  obtain ⟨hreps, h⟩ := Py.ite_error_eq_ok.1 h
  obtain ⟨-, h⟩ := Py.ite_error_eq_ok.1 h
  obtain ⟨-, h⟩ := Py.ite_error_eq_ok.1 h
  obtain ⟨hnames, h⟩ := Py.ite_error_eq_ok.1 h
  obtain ⟨hlevels, h⟩ := Py.ite_error_eq_ok.1 h
  obtain ⟨hfew, h⟩ := Py.ite_error_eq_ok.1 h
  obtain ⟨hbudget, h⟩ := Py.ite_error_eq_ok.1 h
  cases h
  -- what the two checks of names and levels leave
  have hacc : Accepted factors := by
    simp only [not_or, not_not, List.isEmpty_iff] at hnames
    refine ⟨hnames.1, hnames.2, fun factor hf => ?_⟩
    by_contra hbad
    refine hlevels (List.any_eq_true.2 ⟨factor, hf, decide_eq_true ?_⟩)
    by_cases hnd : factor.levels.Nodup
    · exact .inl (by by_contra hlt; exact hbad ⟨by omega, hnd⟩)
    · exact .inr hnd
  refine ⟨hacc, not_lt.1 hreps, ?_, ?_⟩
  · by_cases hconf : config.confirmed = true
    · exact .inr hconf
    · exact .inl (not_lt.1 fun hlt => hbudget ⟨hlt, hconf⟩)
  · by_cases hfrac : (decide ((allCells factors).length * config.repetitions > config.budgetCap) &&
        config.allowFractional) = true
    · -- the fraction
      have hover : config.budgetCap < (allCells factors).length * config.repetitions := by
        simpa using (Bool.and_eq_true_iff.1 hfrac).1
      rw [if_pos hfrac, if_pos hfrac]
      exact .inr ⟨rfl, hover, not_lt.1 fun hlt => hfew ⟨hfrac, hlt⟩, rfl, rfl⟩
    · rw [if_neg hfrac, if_neg hfrac]
      exact .inl ⟨rfl, rfl, rfl⟩

/-- A fraction of a duplicate-free design with more cells than fit: the first cell, followed by the
others in some order, cut at the given number. -/
theorem fraction_spec (shuffle : Shuffle) (seed : ℤ) {maxCells : ℤ} {cells : List (Cell L)}
    (hnd : cells.Nodup) (hmax : 2 ≤ maxCells) (hlong : maxCells ≤ cells.length) :
    (fraction shuffle seed maxCells cells).Nodup ∧
      (∀ cell ∈ fraction shuffle seed maxCells cells, cell ∈ cells) ∧
      (fraction shuffle seed maxCells cells).head? = cells.head? ∧
      ((fraction shuffle seed maxCells cells).length : ℤ) = maxCells := by
  cases cells with
  | nil =>
    simp only [List.length_nil, Nat.cast_zero] at hlong
    omega
  | cons baseline rest =>
    have hperm := shuffle.apply_perm seed rest
    have hsub := List.take_subset (maxCells - 1).toNat (shuffle.apply seed rest)
    rw [List.nodup_cons] at hnd
    have hfrac : fraction shuffle seed maxCells (baseline :: rest) =
        baseline :: (shuffle.apply seed rest).take (maxCells - 1).toNat := rfl
    rw [hfrac]
    refine ⟨List.nodup_cons.2 ⟨fun hmem => hnd.1 (hperm.subset (hsub hmem)), ?_⟩, ?_, rfl, ?_⟩
    · exact (hperm.nodup_iff.2 hnd.2).sublist (List.take_sublist _ _)
    · intro cell hcell
      rcases List.mem_cons.1 hcell with rfl | hcell
      · exact List.mem_cons_self
      · exact List.mem_cons_of_mem _ (hperm.subset (hsub hcell))
    · have hrest : (shuffle.apply seed rest).length = rest.length := hperm.length_eq
      rw [List.length_cons] at hlong
      rw [List.length_cons, List.length_take, hrest]
      push_cast at hlong ⊢
      omega

/-- Reordering a fraction moves only the cells behind the baseline. -/
theorem runOrder_fractional_spec (shuffle : Shuffle) (seed : ℤ) (cells : List (Cell L)) :
    (runOrder shuffle seed .fractional cells).Perm cells ∧
      (runOrder shuffle seed .fractional cells).head? = cells.head? := by
  cases cells with
  | nil => exact ⟨shuffle.apply_perm seed [], by simp [runOrder, Shuffle.apply]⟩
  | cons baseline rest =>
    have hrun : runOrder shuffle seed .fractional (baseline :: rest) =
        baseline :: shuffle.apply seed rest := rfl
    rw [hrun]
    exact ⟨(shuffle.apply_perm seed rest).cons baseline, rfl⟩

/-- **Campaign plans.**  For every factor grid, configuration and shuffle, what `plan_campaign`
returns consists of distinct cells of the design; a full plan is a permutation of the whole
product; the planned trials stay within the budget unless the caller confirmed them; and a
fractional plan starts with the baseline and has the largest number of cells whose repetitions fit
the budget. -/
theorem planCampaign_sound [DecidableEq L] (shuffle : Shuffle) (factors : List (Factor L))
    (config : CampaignConfig) (plan : CampaignPlan L)
    (h : planCampaign shuffle factors config = .ok plan) :
    plan.cells.Nodup ∧
    (∀ cell ∈ plan.cells, IsCell factors cell) ∧
    (plan.design = .full → plan.cells.Perm (allCells factors) ∧
      ∀ cell, cell ∈ plan.cells ↔ IsCell factors cell) ∧
    plan.totalTrials = plan.cells.length * config.repetitions ∧
    (plan.totalTrials ≤ config.budgetCap ∨ config.confirmed = true) ∧
    (plan.design = .fractional →
      (∃ baseline, plan.cells.head? = some baseline ∧ IsBaseline factors baseline) ∧
      plan.cells.length * config.repetitions ≤ config.budgetCap ∧
      ∀ n : ℕ, n * config.repetitions ≤ config.budgetCap → n ≤ plan.cells.length) := by
  obtain ⟨hacc, hreps, hbudget, hplan⟩ := planCampaign_eq_ok h
  have hnd := hacc.nodup_allCells
  rcases hplan with ⟨hdesign, hcells, htotal⟩ | ⟨hdesign, hover, htwo, hcells, htotal⟩
  · have hperm : plan.cells.Perm (allCells factors) := hcells ▸ shuffle.apply_perm _ _
    refine ⟨hperm.nodup_iff.2 hnd, fun cell hc => mem_allCells.1 (hperm.subset hc),
      fun _ => ⟨hperm, fun cell => hperm.mem_iff.trans mem_allCells⟩, ?_, hbudget, ?_⟩
    · rw [htotal, hperm.length_eq]
    · simp [hdesign]
  · -- the whole design is over the budget, so the fraction is cut inside it
    have hfit := Int.ediv_mul_le config.budgetCap (show config.repetitions ≠ 0 by omega)
    have hlong : config.budgetCap / config.repetitions ≤ (allCells factors).length := by
      have : config.budgetCap / config.repetitions < (allCells factors).length :=
        Int.ediv_lt_of_lt_mul (by omega) hover
      omega
    obtain ⟨hfnd, hfmem, hfhead, hflen⟩ := fraction_spec shuffle config.seed hnd htwo hlong
    obtain ⟨hperm, hhead⟩ := runOrder_fractional_spec shuffle config.seed
      (fraction shuffle config.seed (config.budgetCap / config.repetitions) (allCells factors))
    rw [← hcells] at hperm hhead
    have hlen : (plan.cells.length : ℤ) = config.budgetCap / config.repetitions := by
      rw [hperm.length_eq, hflen]
    refine ⟨hperm.nodup_iff.2 hfnd,
      fun cell hc => mem_allCells.1 (hfmem cell (hperm.subset hc)), by simp [hdesign], ?_, hbudget,
      fun _ => ⟨?_, hlen ▸ hfit, fun n hn => ?_⟩⟩
    · rw [htotal, hperm.length_eq]
    · obtain ⟨baseline, hb, hbase⟩ := hacc.head?_allCells
      exact ⟨baseline, by rw [hhead, hfhead, hb], hbase⟩
    · have : (n : ℤ) ≤ config.budgetCap / config.repetitions :=
        (Int.le_ediv_iff_mul_le (by omega)).2 hn
      omega

/-- Two factors with two levels each. -/
def twoFactors : List (Factor ℕ) := [⟨"workers", [1, 2]⟩, ⟨"limit", [10, 20]⟩]

/-- What the generator does with two and with three elements for the seed 1: it moves each element
one place towards the front. -/
def rotating : Shuffle := fun _ n => finRotate n

/-- A budget of three trials keeps the baseline and two of the other three cells. -/
theorem planCampaign_sound_twoFactors : ∃ plan,
    planCampaign rotating twoFactors { budgetCap := 3, allowFractional := true } = .ok plan ∧
      plan.cells = [[("workers", 1), ("limit", 10)], [("workers", 2), ("limit", 20)],
        [("workers", 2), ("limit", 10)]] ∧
      plan.totalTrials = 3 ∧ plan.cells.Nodup ∧
      ∀ n : ℕ, n * (1 : ℤ) ≤ 3 → n ≤ plan.cells.length := by
  have hok : Except.toBool
      (planCampaign rotating twoFactors { budgetCap := 3, allowFractional := true }) = true := by
    decide +kernel
  cases hplan : planCampaign rotating twoFactors { budgetCap := 3, allowFractional := true } with
  | error e =>
    rw [hplan] at hok
    cases hok
  | ok plan =>
    have hsound := planCampaign_sound _ _ _ _ hplan
    have hcells : (planCampaign rotating twoFactors
        { budgetCap := 3, allowFractional := true }).toOption.map
          (fun plan => (plan.design, plan.cells)) =
        some (.fractional, [[("workers", 1), ("limit", 10)], [("workers", 2), ("limit", 20)],
          [("workers", 2), ("limit", 10)]]) := by
      decide +kernel
    rw [hplan] at hcells
    obtain ⟨hdesign, hcells⟩ := Prod.mk.inj (Option.some.inj hcells)
    refine ⟨plan, rfl, hcells, ?_, hsound.1, (hsound.2.2.2.2.2 hdesign).2.2⟩
    rw [hsound.2.2.2.1, hcells]
    rfl

end Phase8

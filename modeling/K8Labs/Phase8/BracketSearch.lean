import K8Labs.Phase8.Bracket
import Mathlib.Algebra.Order.Ring.Rat
import Mathlib.Data.Int.ConditionallyCompleteOrder
import Mathlib.Data.List.Nodup
import Mathlib.Data.List.Range
import Mathlib.Order.Bounds.Basic
import Mathlib.Tactic.Linarith

/-!
# What the bracketed search guarantees

* `isPlan_iff` : the plan of `plan_limits` uses up its cells or ends at the maximum exactly when no
  limit below the maximum is rounded to the limit before it.
* `evaluateTrials_spec` : when `evaluate_trials` raises, and which limits it returns otherwise.
-/

namespace Phase8

/-! ### Plans -/

/-- What a plan is for. -/
structure IsPlan (minLimit maxLimit maxCells : ℤ) (limits : List ℤ) : Prop where
  ne_nil : limits ≠ []
  ascending : limits.Pairwise (· < ·)
  range : ∀ limit ∈ limits, minLimit ≤ limit ∧ limit ≤ maxLimit
  length_le : (limits.length : ℤ) ≤ maxCells
  exhausted : (limits.length : ℤ) = maxCells ∨ limits.getLast? = some maxLimit

/-- A limit of `roundLimit`. -/
def roundedLimit (q : ℚ) : ℤ :=
  if 100 ≤ q then Py.truncate (q / 10 + 1 / 2) * 10 else Py.truncate (q + 1 / 2)

theorem roundLimit_fin (q : ℚ) : roundLimit (.fin q) = .ok (roundedLimit q) := by
  unfold roundLimit roundedLimit
  dsimp only
  split_ifs <;> rfl

theorem roundedLimit_mono {q r : ℚ} (hq : 0 ≤ q) (hle : q ≤ r) :
    roundedLimit q ≤ roundedLimit r := by
  have htruncate : ∀ x : ℚ, 0 ≤ x → Py.truncate x = ⌊x⌋ := fun x hx => if_neg (not_lt.2 hx)
  unfold roundedLimit
  split_ifs with h₁ h₂ h₂
  · rw [htruncate _ (by linarith), htruncate _ (by linarith)]
    have hfloor : ⌊q / 10 + 1 / 2⌋ ≤ ⌊r / 10 + 1 / 2⌋ := Int.floor_le_floor (by linarith)
    omega
  · exact absurd (h₁.trans hle) h₂
  · -- at one hundred both ways of rounding agree
    rw [htruncate _ (by linarith), htruncate _ (by linarith)]
    have hleft : ⌊q + 1 / 2⌋ < 101 := Int.floor_lt.2 (by push_cast; linarith)
    have hright : 10 ≤ ⌊r / 10 + 1 / 2⌋ := Int.le_floor.2 (by push_cast; linarith)
    omega
  · rw [htruncate _ (by linarith), htruncate _ (by linarith)]
    exact Int.floor_le_floor (by linarith)

section Planned

variable {minLimit maxLimit maxCells : ℤ} {growth : ℚ}

/-- The limit that comes after `k` others, if the plan gets so far. -/
def plannedLimit (minLimit maxLimit : ℤ) (growth : ℚ) (k : ℕ) : ℤ :=
  min (max (roundedLimit (minLimit * growth ^ k)) minLimit) maxLimit

theorem plannedLimit_mono (hmin : 1 ≤ minLimit) (hgrowth : 1 < growth) {i j : ℕ} (hij : i ≤ j) :
    plannedLimit minLimit maxLimit growth i ≤ plannedLimit minLimit maxLimit growth j := by
  have hpos : (0 : ℚ) ≤ minLimit := by exact_mod_cast (by omega : (0 : ℤ) ≤ minLimit)
  have hpow : growth ^ i ≤ growth ^ j := pow_le_pow_right₀ hgrowth.le hij
  have hnonneg : 0 ≤ growth ^ i := pow_nonneg (by linarith) i
  have hround : roundedLimit (minLimit * growth ^ i) ≤ roundedLimit (minLimit * growth ^ j) :=
    roundedLimit_mono (mul_nonneg hpos hnonneg) (mul_le_mul_of_nonneg_left hpow hpos)
  unfold plannedLimit
  omega

theorem plannedLimit_range (hle : minLimit ≤ maxLimit) (k : ℕ) :
    minLimit ≤ plannedLimit minLimit maxLimit growth k ∧
      plannedLimit minLimit maxLimit growth k ≤ maxLimit := by
  unfold plannedLimit
  omega

theorem planLoop_succ (cells k : ℕ) (last : Option ℤ) :
    planLoop minLimit maxLimit (.fin growth) (cells + 1) last (.fin (minLimit * growth ^ k)) =
      if last.any fun previous => decide (plannedLimit minLimit maxLimit growth k ≤ previous) then
        .ok []
      else if maxLimit ≤ plannedLimit minLimit maxLimit growth k then
        .ok [plannedLimit minLimit maxLimit growth k]
      else
        (planLoop minLimit maxLimit (.fin growth) cells
          (some (plannedLimit minLimit maxLimit growth k)) (.fin (minLimit * growth ^ (k + 1)))).map
          (plannedLimit minLimit maxLimit growth k :: ·) := by
  rw [planLoop, roundLimit_fin, pow_succ, ← mul_assoc]
  rfl

/-- The loop behind a limit below the maximum: it goes on while the limits grow, until the cells are
used up, the maximum is reached or a limit repeats. -/
theorem planLoop_from (cells : ℕ) {k : ℕ}
    (hk : plannedLimit minLimit maxLimit growth k < maxLimit) :
    ∃ m ≤ cells, planLoop minLimit maxLimit (.fin growth) cells
        (some (plannedLimit minLimit maxLimit growth k)) (.fin (minLimit * growth ^ (k + 1))) =
          .ok ((List.range m).map fun i => plannedLimit minLimit maxLimit growth (k + 1 + i)) ∧
      (∀ i < m, plannedLimit minLimit maxLimit growth (k + i) <
        plannedLimit minLimit maxLimit growth (k + i + 1)) ∧
      (m = cells ∨ maxLimit ≤ plannedLimit minLimit maxLimit growth (k + m) ∨
        plannedLimit minLimit maxLimit growth (k + m + 1) ≤
          plannedLimit minLimit maxLimit growth (k + m)) := by
  induction cells generalizing k with
  | zero => exact ⟨0, le_rfl, rfl, fun i hi => absurd hi (Nat.not_lt_zero i), .inl rfl⟩
  | succ cells ih =>
    rw [planLoop_succ, Option.any_some]
    -- a limit that repeats ends the loop without being planned again
    by_cases hstall : plannedLimit minLimit maxLimit growth (k + 1) ≤
      plannedLimit minLimit maxLimit growth k
    · rw [if_pos (decide_eq_true hstall)]
      exact ⟨0, Nat.zero_le _, rfl, fun i hi => absurd hi (Nat.not_lt_zero i), .inr (.inr hstall)⟩
    · rw [if_neg (by simpa using hstall)]
      by_cases htop : maxLimit ≤ plannedLimit minLimit maxLimit growth (k + 1)
      · refine ⟨1, Nat.le_add_left 1 cells, if_pos htop, fun i hi => ?_, .inr (.inl htop)⟩
        rw [Nat.lt_one_iff.1 hi]
        exact not_le.1 hstall
      · obtain ⟨m, hm, hloop, hsteps, hend⟩ := ih (not_le.1 htop)
        refine ⟨m + 1, by omega, ?_, fun i hi => ?_, ?_⟩
        · have hshift : (List.range m).map (fun i =>
                plannedLimit minLimit maxLimit growth (k + 1 + 1 + i)) =
              (List.range m).map fun i => plannedLimit minLimit maxLimit growth (k + 1 + (i + 1)) :=
            List.map_congr_left fun i _ => by rw [Nat.add_assoc (k + 1), Nat.add_comm 1 i]
          rw [if_neg htop, hloop, List.range_succ_eq_map, List.map_cons, List.map_map, hshift]
          rfl
        · cases i with
          | zero => exact not_le.1 hstall
          | succ i =>
            have hstep := hsteps i (by omega)
            rwa [Nat.add_right_comm k 1 i] at hstep
        · rw [← Nat.add_assoc, Nat.add_right_comm k m 1]
          rcases hend with rfl | hend
          · exact .inl rfl
          · exact .inr hend

/-- The plan: the limits while they grow. -/
theorem planLimits_eq (hmin : 1 ≤ minLimit) (hle : minLimit ≤ maxLimit) (hgrowth : 1 < growth)
    (hcells : 1 ≤ maxCells) :
    ∃ m : ℕ, (m : ℤ) < maxCells ∧ planLimits minLimit maxLimit (.fin growth) maxCells =
        .ok ((List.range (m + 1)).map (plannedLimit minLimit maxLimit growth)) ∧
      (∀ i < m, plannedLimit minLimit maxLimit growth i <
        plannedLimit minLimit maxLimit growth (i + 1)) ∧
      ((m : ℤ) + 1 = maxCells ∨ maxLimit ≤ plannedLimit minLimit maxLimit growth m ∨
        plannedLimit minLimit maxLimit growth (m + 1) ≤
          plannedLimit minLimit maxLimit growth m) := by
  obtain ⟨cells, rfl⟩ : ∃ cells : ℕ, maxCells = cells + 1 := ⟨(maxCells - 1).toNat, by omega⟩
  have hfin : ¬ ((Py.Float.fin growth).lt (.fin 1) = true ∨ Py.Float.fin growth = .fin 1) := by
    rintro (hlt | heq)
    · exact absurd (of_decide_eq_true hlt) (by linarith)
    · exact absurd (Py.Float.fin.inj heq) (by linarith)
  have hloop : planLimits minLimit maxLimit (.fin growth) (cells + 1) =
      planLoop minLimit maxLimit (.fin growth) (cells + 1) none (.fin (minLimit * growth ^ 0)) := by
    unfold planLimits
    rw [if_neg (by omega), if_neg (by omega), if_neg hfin, if_neg (by omega), pow_zero, mul_one]
    rfl
  rw [hloop, planLoop_succ, Option.any_none, if_neg Bool.false_ne_true]
  by_cases htop : maxLimit ≤ plannedLimit minLimit maxLimit growth 0
  · exact ⟨0, by omega, if_pos htop, fun i hi => absurd hi (Nat.not_lt_zero i), .inr (.inl htop)⟩
  · obtain ⟨m, hm, hrest, hsteps, hend⟩ := planLoop_from cells (not_le.1 htop)
    simp only [Nat.zero_add] at hrest hsteps hend
    refine ⟨m, by omega, ?_, hsteps, ?_⟩
    · rw [if_neg htop, Nat.zero_add, hrest, List.range_succ_eq_map, List.map_cons, List.map_map]
      simp only [Function.comp_def, Nat.succ_eq_add_one, Nat.add_comm 1]
      rfl
    · rcases hend with rfl | hend
      · exact .inl rfl
      · exact .inr hend

/-- **A plan is complete** exactly when no limit below the maximum is rounded to the one before. -/
theorem isPlan_iff (hmin : 1 ≤ minLimit) (hle : minLimit ≤ maxLimit) (hgrowth : 1 < growth)
    (hcells : 1 ≤ maxCells) :
    (∃ limits, planLimits minLimit maxLimit (.fin growth) maxCells = .ok limits ∧
        IsPlan minLimit maxLimit maxCells limits) ↔
      ∀ k : ℕ, (k : ℤ) + 1 < maxCells → plannedLimit minLimit maxLimit growth k < maxLimit →
        plannedLimit minLimit maxLimit growth k < plannedLimit minLimit maxLimit growth (k + 1) := by
  obtain ⟨m, hm, hplan, hsteps, hend⟩ := planLimits_eq hmin hle hgrowth hcells
  have hlast : ((List.range (m + 1)).map (plannedLimit minLimit maxLimit growth)).getLast? =
      some (plannedLimit minLimit maxLimit growth m) := by
    rw [List.range_succ, List.map_append, List.map_singleton, List.getLast?_concat]
  rw [hplan]
  constructor
  · rintro ⟨limits, hlimits, hexhausted⟩ k hk hbelow
    cases hlimits
    by_contra hstall
    have hkm : m ≤ k := not_lt.1 fun hlt => hstall (hsteps k hlt)
    have hmono : plannedLimit minLimit maxLimit growth m ≤ plannedLimit minLimit maxLimit growth k :=
      plannedLimit_mono hmin hgrowth hkm
    rcases hexhausted.exhausted with hlength | hmaximum
    · rw [List.length_map, List.length_range] at hlength
      omega
    · rw [hlast] at hmaximum
      have hmaximum := Option.some.inj hmaximum
      omega
  · intro hgrows
    refine ⟨_, rfl, by simp, ?_, ?_, ?_, ?_⟩
    · have hchain : ((List.range (m + 1)).map (plannedLimit minLimit maxLimit growth)).IsChain
          (· < ·) := (List.isChain_map _).2 ((List.isChain_range_succ _ m).2 hsteps)
      exact List.isChain_iff_pairwise.1 hchain
    · intro limit hlimit
      obtain ⟨k, -, rfl⟩ := List.mem_map.1 hlimit
      exact plannedLimit_range hle k
    · rw [List.length_map, List.length_range]
      omega
    · rw [List.length_map, List.length_range, hlast]
      -- why the loop ended: only the last reason leaves a plan that is not complete
      rcases hend with hused | htop | hstall
      · exact .inl (by omega)
      · exact .inr (congrArg some (le_antisymm (plannedLimit_range hle m).2 htop))
      · by_cases hused : (m : ℤ) + 1 < maxCells
        · refine .inr (congrArg some (le_antisymm (plannedLimit_range hle m).2 (not_lt.1 ?_)))
          exact fun hbelow => absurd (hgrows m hused hbelow) (not_lt.2 hstall)
        · exact .inl (by omega)

/-- From one millicore with a growth of a tenth the plan does not get beyond one millicore. -/
theorem stalled_plan :
    ¬ ∃ limits, planLimits 1 100 (.fin (11 / 10)) 5 = .ok limits ∧ IsPlan 1 100 5 limits := by
  have hplan : planLimits 1 100 (.fin (11 / 10)) 5 = .ok [1] := by decide +kernel
  rintro ⟨limits, hlimits, h⟩
  rw [hplan] at hlimits
  cases hlimits
  rcases h.exhausted with hlength | hmaximum
  · exact absurd hlength (by decide)
  · exact absurd hmaximum (by decide)

/-- A plan that doubles from one hundred millicores. -/
theorem isPlan_doubling :
    (∃ limits, planLimits 100 1000 (.fin 2) 2 = .ok limits ∧ IsPlan 100 1000 2 limits) ↔
      ∀ k : ℕ, (k : ℤ) + 1 < 2 → plannedLimit 100 1000 2 k < 1000 →
        plannedLimit 100 1000 2 k < plannedLimit 100 1000 2 (k + 1) :=
  isPlan_iff (by decide) (by decide) (by norm_num) (by decide)

end Planned

/-! ### Brackets -/

/-- Trials from which a bracket can be derived. -/
structure Usable (trials : List Trial) (nodeCapacity : ℤ) : Prop where
  ne_nil : trials ≠ []
  ascending : trials.Pairwise fun earlier later => earlier.limitMillicores < later.limitMillicores
  within : ∀ trial ∈ trials, trial.limitMillicores ≤ nodeCapacity
  meets : ∃ trial ∈ trials, trial.outcome = .meetsSlo

/-- The limits that were judged so. -/
def judged (trials : List Trial) (outcome : Outcome) : Set ℤ :=
  {limit | ∃ trial ∈ trials, trial.outcome = outcome ∧ trial.limitMillicores = limit}

/-- What a bracket says of its trials. -/
structure Brackets (trials : List Trial) (bracket : Bracket) : Prop where
  passing : IsLeast (judged trials .meetsSlo) bracket.passingMillicores
  failing : ∀ limit, bracket.failingBelowMillicores = some limit ↔
    IsGreatest (judged trials .breachesSlo ∩ Set.Iio bracket.passingMillicores) limit
  absent : bracket.failingBelowMillicores = none ↔
    judged trials .breachesSlo ∩ Set.Iio bracket.passingMillicores = ∅
  invalid : ∀ limit ∈ judged trials .invalid, bracket.passingMillicores ≠ limit ∧
    bracket.failingBelowMillicores ≠ some limit

section Trials

variable {trials : List Trial} {nodeCapacity passing : ℤ}

theorem firstUnordered_eq_none_iff : firstUnordered trials = none ↔
    trials.Pairwise fun earlier later => earlier.limitMillicores < later.limitMillicores := by
  have htrans : IsTrans Trial fun earlier later =>
      earlier.limitMillicores < later.limitMillicores := ⟨fun _ _ _ => lt_trans⟩
  rw [← List.isChain_iff_pairwise]
  induction trials with
  | nil => simp [firstUnordered]
  | cons earlier trials ih =>
    cases trials with
    | nil => simp [firstUnordered]
    | cons later trials =>
      rw [firstUnordered, List.isChain_cons_cons]
      split_ifs with h
      · exact iff_of_false (fun h => nomatch h) fun hchain => absurd hchain.1 (not_lt.2 h)
      · exact ih.trans (and_iff_right (not_le.1 h)).symm

/-- Two trials of one limit are the same. -/
theorem eq_of_limit_eq (h : trials.Pairwise fun earlier later =>
      earlier.limitMillicores < later.limitMillicores) {a b : Trial} (ha : a ∈ trials)
    (hb : b ∈ trials) (heq : a.limitMillicores = b.limitMillicores) : a = b := by
  have hnodup : (trials.map Trial.limitMillicores).Nodup :=
    List.pairwise_map.2 (h.imp fun hlt => ne_of_lt hlt)
  exact List.inj_on_of_nodup_map hnodup ha hb heq

theorem mem_judged_cons {trial : Trial} {outcome : Outcome} {limit : ℤ} :
    limit ∈ judged (trial :: trials) outcome ↔
      trial.outcome = outcome ∧ trial.limitMillicores = limit ∨ limit ∈ judged trials outcome :=
  List.exists_mem_cons_iff ..

/-- The loop keeps the last breach below the passing limit. -/
theorem failingBelow_spec (h : trials.Pairwise fun earlier later =>
      earlier.limitMillicores < later.limitMillicores) {found : Option ℤ}
    (hfound : ∀ limit ∈ found, ∀ trial ∈ trials, limit < trial.limitMillicores) :
    (∀ limit ∈ failingBelow passing trials found,
      limit ∈ found ∨ limit ∈ judged trials .breachesSlo ∩ Set.Iio passing) ∧
    ∀ limit, limit ∈ found ∨ limit ∈ judged trials .breachesSlo ∩ Set.Iio passing →
      ∃ greatest ∈ failingBelow passing trials found, limit ≤ greatest := by
  induction trials generalizing found with
  | nil =>
    refine ⟨fun limit hlimit => .inl hlimit, fun limit hlimit => ?_⟩
    rcases hlimit with hlimit | ⟨⟨trial, htrial, -⟩, -⟩
    · exact ⟨limit, hlimit, le_rfl⟩
    · cases htrial
  | cons trial trials ih =>
    obtain ⟨hfirst, htrials⟩ := List.pairwise_cons.1 h
    rw [failingBelow]
    split_ifs with hpassing hbreach
    · -- the limits from here on are not below the passing one
      refine ⟨fun limit hlimit => .inl hlimit, fun limit hlimit => ?_⟩
      rcases hlimit with hlimit | ⟨hjudged, hbelow⟩
      · exact ⟨limit, hlimit, le_rfl⟩
      · have hbelow : limit < passing := hbelow
        rcases mem_judged_cons.1 hjudged with ⟨-, rfl⟩ | ⟨later, hlater, -, rfl⟩
        · omega
        · have hlt := hfirst later hlater
          omega
    -- this breach replaces the smaller one found before
    · obtain ⟨hsound, hgreatest⟩ := @ih htrials (some trial.limitMillicores) (by
        rintro limit ⟨⟩ later hlater
        exact hfirst later hlater)
      constructor
      · intro limit hlimit
        rcases hsound limit hlimit with ⟨⟨⟩⟩ | ⟨hjudged, hbelow⟩
        · exact .inr ⟨mem_judged_cons.2 (.inl ⟨hbreach, rfl⟩), not_le.1 hpassing⟩
        · exact .inr ⟨mem_judged_cons.2 (.inr hjudged), hbelow⟩
      · intro limit hlimit
        rcases hlimit with hlimit | ⟨hjudged, hbelow⟩
        · obtain ⟨greatest, hmem, hle⟩ := hgreatest trial.limitMillicores (.inl rfl)
          exact ⟨greatest, hmem, (hfound limit hlimit trial List.mem_cons_self).le.trans hle⟩
        · rcases mem_judged_cons.1 hjudged with ⟨-, rfl⟩ | hjudged
          · exact hgreatest trial.limitMillicores (.inl rfl)
          · exact hgreatest limit (.inr ⟨hjudged, hbelow⟩)
    -- another outcome changes nothing
    · obtain ⟨hsound, hgreatest⟩ := @ih htrials found fun limit hlimit later hlater =>
        hfound limit hlimit later (List.mem_cons_of_mem _ hlater)
      constructor
      · intro limit hlimit
        rcases hsound limit hlimit with hlimit | ⟨hjudged, hbelow⟩
        · exact .inl hlimit
        · exact .inr ⟨mem_judged_cons.2 (.inr hjudged), hbelow⟩
      · intro limit hlimit
        rcases hlimit with hlimit | ⟨hjudged, hbelow⟩
        · exact hgreatest limit (.inl hlimit)
        · rcases mem_judged_cons.1 hjudged with ⟨houtcome, -⟩ | hjudged
          · exact absurd houtcome hbreach
          · exact hgreatest limit (.inr ⟨hjudged, hbelow⟩)

theorem failingBelow_eq_some_iff (h : trials.Pairwise fun earlier later =>
      earlier.limitMillicores < later.limitMillicores) (limit : ℤ) :
    failingBelow passing trials none = some limit ↔
      IsGreatest (judged trials .breachesSlo ∩ Set.Iio passing) limit := by
  obtain ⟨hsound, hgreatest⟩ := @failingBelow_spec trials passing h none (fun _ hnone => nomatch hnone)
  constructor
  · intro hsome
    refine ⟨(hsound limit hsome).resolve_left (fun hnone => nomatch hnone), fun other hother => ?_⟩
    obtain ⟨greatest, hmem, hle⟩ := hgreatest other (.inr hother)
    rw [hsome] at hmem
    cases hmem
    exact hle
  · intro hlimit
    obtain ⟨greatest, hmem, hle⟩ := hgreatest limit (.inr hlimit.1)
    have hjudged := (hsound greatest hmem).resolve_left (fun hnone => nomatch hnone)
    rw [Option.mem_def.1 hmem, le_antisymm hle (hlimit.2 hjudged)]

theorem failingBelow_eq_none_iff (h : trials.Pairwise fun earlier later =>
      earlier.limitMillicores < later.limitMillicores) :
    failingBelow passing trials none = none ↔ judged trials .breachesSlo ∩ Set.Iio passing = ∅ := by
  obtain ⟨hsound, hgreatest⟩ := @failingBelow_spec trials passing h none (fun _ hnone => nomatch hnone)
  rw [Option.eq_none_iff_forall_not_mem, Set.eq_empty_iff_forall_notMem]
  constructor
  · intro hnone limit hlimit
    obtain ⟨greatest, hmem, -⟩ := hgreatest limit (.inr hlimit)
    exact hnone greatest hmem
  · intro hempty limit hlimit
    exact hempty limit ((hsound limit hlimit).resolve_left fun hnone => nomatch hnone)

/-- The first trial that meets the SLO has the least limit. -/
theorem isLeast_of_find? (h : trials.Pairwise fun earlier later =>
      earlier.limitMillicores < later.limitMillicores) {trial : Trial}
    (hfind : trials.find? (fun trial => trial.outcome == .meetsSlo) = some trial) :
    IsLeast (judged trials .meetsSlo) trial.limitMillicores := by
  obtain ⟨hmeets, before, after, rfl, hbefore⟩ := List.find?_eq_some_iff_append.1 hfind
  refine ⟨⟨trial, List.mem_append_right _ List.mem_cons_self, eq_of_beq hmeets, rfl⟩, ?_⟩
  rintro limit ⟨other, hother, houtcome, rfl⟩
  rcases List.mem_append.1 hother with hother | hother
  · have hfalse := hbefore other hother
    rw [houtcome] at hfalse
    exact absurd hfalse (by decide)
  · rcases List.mem_cons.1 hother with rfl | hother
    · exact le_rfl
    · exact ((List.pairwise_cons.1 (List.pairwise_append.1 h).2.1).1 other hother).le

/-- **When `evaluate_trials` raises, and what it returns otherwise.** -/
theorem evaluateTrials_spec (trials : List Trial) (nodeCapacity : ℤ) :
    match evaluateTrials trials nodeCapacity with
    | .error _ => ¬ Usable trials nodeCapacity
    | .ok bracket => Usable trials nodeCapacity ∧ Brackets trials bracket := by
  unfold evaluateTrials
  -- the four checks in the order of the source: each that fails breaks one field of `Usable`
  cases hlast : trials.getLast? with
  | none => exact fun h => h.ne_nil (List.getLast?_eq_none_iff.1 hlast)
  | some last =>
    dsimp only
    cases hordered : firstUnordered trials with
    | some pair =>
      intro h
      rw [firstUnordered_eq_none_iff.2 h.ascending] at hordered
      cases hordered
    | none =>
      have hascending := firstUnordered_eq_none_iff.1 hordered
      dsimp only
      cases hwithin : trials.find? fun trial => decide (nodeCapacity < trial.limitMillicores) with
      | some trial =>
        intro h
        have hlt : decide (nodeCapacity < trial.limitMillicores) = true :=
          List.find?_some (p := fun trial : Trial => decide (nodeCapacity < trial.limitMillicores))
            hwithin
        have hle := h.within trial (List.mem_of_find?_eq_some hwithin)
        exact absurd (of_decide_eq_true hlt) (not_lt.2 hle)
      | none =>
        dsimp only
        cases hmeets : trials.find? fun trial => trial.outcome == .meetsSlo with
        | none =>
          have hunusable : ¬ Usable trials nodeCapacity := by
            intro h
            obtain ⟨trial, htrial, houtcome⟩ := h.meets
            have hfalse := List.find?_eq_none.1 hmeets trial htrial
            rw [houtcome] at hfalse
            exact hfalse rfl
          dsimp only
          split_ifs <;> exact hunusable
        | some passing =>
          have hpassing := isLeast_of_find? hascending hmeets
          obtain ⟨trial, htrial, houtcome, -⟩ := hpassing.1
          refine ⟨⟨List.ne_nil_of_mem htrial, hascending, fun other hother => ?_,
            ⟨trial, htrial, houtcome⟩⟩, hpassing, failingBelow_eq_some_iff hascending,
            failingBelow_eq_none_iff hascending, ?_⟩
          · have hfalse := List.find?_eq_none.1 hwithin other hother
            exact not_lt.1 fun hlt => hfalse (decide_eq_true hlt)
          -- limits ascend strictly, so the trial of a limit has one outcome
          · rintro limit ⟨other, hother, hinvalid, rfl⟩
            have hdistinct : ∀ outcome, outcome ≠ .invalid →
                other.limitMillicores ∉ judged trials outcome := by
              rintro outcome hne ⟨same, hsame, houtcome, hlimit⟩
              rw [eq_of_limit_eq hascending hsame hother hlimit, hinvalid] at houtcome
              exact hne houtcome.symm
            constructor
            · rintro heq
              exact hdistinct .meetsSlo (by decide) (heq ▸ hpassing.1)
            · intro heq
              exact hdistinct .breachesSlo (by decide)
                ((failingBelow_eq_some_iff hascending _).1 heq).1.1

end Trials

end Phase8

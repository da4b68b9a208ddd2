import K8Labs.Python.Exc
import K8Labs.Python.Number
import Mathlib.Tactic.SplitIfs

/-!
# The bracketed search for a CPU limit

`research/cpu-limits/phase8/campaign/bracket.py`: the limits the pilot tries (`planLimits`, a
geometric progression clamped to the admissible range) and the bracket it derives from the
outcomes (`evaluateTrials`).

A planned limit always lies in the admissible range (`mem_planLimits`), whatever the growth
factor does to the unrounded progression, and the first one is the minimum itself below one
hundred millicores (`planLimits_head`).
-/

namespace Phase8

/-- The result of evaluating one limit against the SLO. -/
inductive Outcome where
  | meetsSlo
  | breachesSlo
  | invalid
  deriving DecidableEq

/-- The recorded spelling of an outcome. -/
def Outcome.value : Outcome → String
  | meetsSlo => "meets-slo"
  | breachesSlo => "breaches-slo"
  | invalid => "invalid"

/-- Why the search stopped. -/
inductive StopReason where
  | meetsSlo
  | capacityReached
  | invalidOnly
  deriving DecidableEq

/-! ### Planning the limits -/

/-- `float * float` for the unrounded limit, which is positive. -/
def grow : Py.Float → Py.Float → Py.Float
  | .fin x, .fin g => .fin (x * g)
  | .fin _, g => g
  | _, .nan => .nan
  | x, _ => x

/-- Rounding to 10m from 100m on and to 1m below; `int` refuses what is not finite. -/
def roundLimit : Py.Float → Except Py.Exc ℤ
  | .fin current =>
    if 100 ≤ current then .ok (Py.truncate (current / 10 + 1 / 2) * 10)
    else .ok (Py.truncate (current + 1 / 2))
  | .nan => Py.valueError "cannot convert float NaN to integer"
  | _ => .error ⟨.overflowError, "cannot convert float infinity to integer"⟩

/-- The `while` loop of `plan_limits` with room for `cells` more limits; `last` is the limit
appended before. -/
def planLoop (minLimit maxLimit : ℤ) (growth : Py.Float) :
    ℕ → Option ℤ → Py.Float → Except Py.Exc (List ℤ)
  | 0, _, _ => .ok []
  | cells + 1, last, current =>
    (roundLimit current).bind fun rounded =>
      let limit := min (max rounded minLimit) maxLimit
      if last.any fun previous => decide (limit ≤ previous) then .ok []
      else if maxLimit ≤ limit then .ok [limit]
      else (planLoop minLimit maxLimit growth cells (some limit) (grow current growth)).map
        (limit :: ·)

/-- `plan_limits`. -/
def planLimits (minLimit maxLimit : ℤ) (growth : Py.Float) (maxCells : ℤ) :
    Except Py.Exc (List ℤ) :=
  if minLimit < 1 then Py.valueError "min_limit_millicores must be at least 1"
  else if maxLimit < minLimit then
    Py.valueError "max_limit_millicores must be at least min_limit_millicores"
  else if growth.lt (.fin 1) ∨ growth = .fin 1 then
    Py.valueError "growth must be greater than 1 or the plan never grows"
  else if maxCells < 1 then Py.valueError "max_cells must be at least 1"
  else planLoop minLimit maxLimit growth maxCells.toNat none (.fin minLimit)

theorem planLoop_range {minLimit maxLimit : ℤ} (hle : minLimit ≤ maxLimit) {growth : Py.Float}
    {cells : ℕ} {last : Option ℤ} {current : Py.Float} {limits : List ℤ}
    (h : planLoop minLimit maxLimit growth cells last current = .ok limits) :
    ∀ limit ∈ limits, minLimit ≤ limit ∧ limit ≤ maxLimit := by
  induction cells generalizing last current limits with
  | zero => cases h; simp
  | succ cells ih =>
    rw [planLoop, Py.bind_eq_ok] at h
    obtain ⟨rounded, -, h⟩ := h
    have hclamp : minLimit ≤ min (max rounded minLimit) maxLimit ∧
        min (max rounded minLimit) maxLimit ≤ maxLimit := by omega
    simp only at h
    split_ifs at h
    · cases h; simp
    · cases h; simpa using hclamp
    · obtain ⟨rest, hrest, rfl⟩ := Py.map_eq_ok.1 h
      intro limit hlimit
      rcases List.mem_cons.1 hlimit with rfl | hlimit
      · exact hclamp
      · exact ih hrest limit hlimit

/-- What `plan_limits` checked of an accepted configuration. -/
theorem planLimits_eq_ok {minLimit maxLimit : ℤ} {growth : Py.Float} {maxCells : ℤ}
    {limits : List ℤ} (h : planLimits minLimit maxLimit growth maxCells = .ok limits) :
    1 ≤ minLimit ∧ minLimit ≤ maxLimit ∧ 1 ≤ maxCells ∧
      planLoop minLimit maxLimit growth maxCells.toNat none (.fin minLimit) = .ok limits := by
  unfold planLimits Py.valueError at h
  split_ifs at h with h₁ h₂ h₃ h₄
  exact ⟨by omega, by omega, by omega, h⟩

/-- Every planned limit is admissible. -/
theorem mem_planLimits {minLimit maxLimit : ℤ} {growth : Py.Float} {maxCells : ℤ}
    {limits : List ℤ} (h : planLimits minLimit maxLimit growth maxCells = .ok limits) {limit : ℤ}
    (hl : limit ∈ limits) : minLimit ≤ limit ∧ limit ≤ maxLimit := by
  obtain ⟨-, hle, -, hloop⟩ := planLimits_eq_ok h
  exact planLoop_range hle hloop limit hl

theorem truncate_add_half (n : ℤ) (hn : 0 ≤ n) : Py.truncate ((n : ℚ) + 1 / 2) = n := by
  have h₀ : ¬ ((n : ℚ) + 1 / 2 < 0) := by
    have : (0 : ℚ) ≤ n := by exact_mod_cast hn
    linarith
  rw [Py.truncate, if_neg h₀, Int.floor_eq_iff]
  constructor <;> linarith

/-- A plan is not empty, and below one hundred millicores it starts at the minimum. -/
theorem planLimits_head {minLimit maxLimit : ℤ} {growth : Py.Float} {maxCells : ℤ}
    {limits : List ℤ} (h : planLimits minLimit maxLimit growth maxCells = .ok limits) :
    ∃ first rest, limits = first :: rest ∧ (minLimit < 100 → first = minLimit) := by
  obtain ⟨h₁, hle, hc, hloop⟩ := planLimits_eq_ok h
  obtain ⟨cells, hcells⟩ : ∃ cells, maxCells.toNat = cells + 1 := ⟨maxCells.toNat - 1, by omega⟩
  rw [hcells, planLoop, Py.bind_eq_ok] at hloop
  obtain ⟨rounded, hr, hloop⟩ := hloop
  have hfirst : minLimit < 100 → min (max rounded minLimit) maxLimit = minLimit := by
    intro h100
    have hq : ¬ ((100 : ℚ) ≤ minLimit) := by
      rw [not_le]; exact_mod_cast h100
    rw [roundLimit, if_neg hq, truncate_add_half _ (by omega), Except.ok.injEq] at hr
    omega
  simp only [Option.any_none, Bool.false_eq_true, ↓reduceIte] at hloop
  split_ifs at hloop
  · cases hloop
    exact ⟨_, [], rfl, hfirst⟩
  · obtain ⟨rest, -, rfl⟩ := Py.map_eq_ok.1 hloop
    exact ⟨_, rest, rfl, hfirst⟩

/-! ### Evaluating trials -/

/-- One evaluated limit and what the measurement said about it. -/
structure Trial where
  limitMillicores : ℤ
  outcome : Outcome
  reason : String
  deriving DecidableEq

/-- Limits around the SLO boundary. -/
structure Bracket where
  passingMillicores : ℤ
  failingBelowMillicores : Option ℤ
  trials : List Trial
  stop : StopReason
  nodeCapacityMillicores : ℤ
  deriving DecidableEq

/-- `PilotError`: the pilot cannot produce a usable bracket. -/
structure PilotError where
  message : String
  deriving DecidableEq

/-- The first pair of neighbouring trials whose limits do not increase. -/
def firstUnordered : List Trial → Option (Trial × Trial)
  | earlier :: later :: trials =>
    if later.limitMillicores ≤ earlier.limitMillicores then some (earlier, later)
    else firstUnordered (later :: trials)
  | _ => none

/-- The greatest breaching limit below the passing one: the loop over `trials` stops at the
passing limit and keeps the last breach. -/
def failingBelow (passing : ℤ) : List Trial → Option ℤ → Option ℤ
  | [], found => found
  | trial :: trials, found =>
    if passing ≤ trial.limitMillicores then found
    else failingBelow passing trials
      (if trial.outcome = .breachesSlo then some trial.limitMillicores else found)

/-- `evaluate_trials`. -/
def evaluateTrials (trials : List Trial) (nodeCapacity : ℤ) : Except PilotError Bracket :=
  match trials.getLast? with
  | none => .error ⟨"no trials were recorded"⟩
  | some last =>
    match firstUnordered trials with
    | some (earlier, later) =>
      .error ⟨"trial limits must strictly increase: " ++ toString earlier.limitMillicores ++
        "m then " ++ toString later.limitMillicores ++ "m"⟩
    | none =>
      match trials.find? fun trial => decide (nodeCapacity < trial.limitMillicores) with
      | some trial =>
        .error ⟨"trial limit " ++ toString trial.limitMillicores ++ "m exceeds node capacity " ++
          toString nodeCapacity ++ "m; the result would describe an unschedulable limit"⟩
      | none =>
        match trials.find? fun trial => trial.outcome == .meetsSlo with
        | none =>
          if trials.all fun trial => trial.outcome == .invalid then
            .error ⟨"every trial was invalid; the measurement chain never produced usable data"⟩
          else
            .error ⟨"unsatisfiable: no admissible limit met the SLO, highest tried was " ++
              toString last.limitMillicores ++ "m against node capacity " ++
              toString nodeCapacity ++ "m"⟩
        | some passing =>
          .ok
            { passingMillicores := passing.limitMillicores
              failingBelowMillicores := failingBelow passing.limitMillicores trials none
              trials := trials
              stop := if nodeCapacity ≤ passing.limitMillicores then .capacityReached else .meetsSlo
              nodeCapacityMillicores := nodeCapacity }

end Phase8

import K8Labs.Python.Nearest
import Mathlib.Logic.Relation

/-!
# The offered rate of a scenario

`cmd_calibrate` of `research/linux-sched/experiments/run-block.sh`: a sweep raises the rate until a
probe misses the latency target, then halving narrows the bracket between the last rate that passed
and the first that failed, and the rate that passed is frozen.  A rate is a text: the shell reads it
as an integer of 64 bits (`shell`) and computes with such integers (`midpoint`), `awk` reads it as a
float (`wide`, `nextRate`) and prints the next one.

`calibrates_iff` is the result: **the bracket is always one of a rate that passed and a higher one
that failed, and the halving ends with a tight one, if and only if every bracket on its way can be
halved.**  A bracket of two rates that the shell reads as they are (`Halvable`) is tight or of
adjacent rates, or has a sum of 64 bits and is not narrow for `awk` by rounding.  At a rate of 64
bits or more the comparison of the sweep has wrapped around already.
-/

namespace LinuxSched

namespace Calibrate

open Py

/-! ### The script -/

/-- What `awk` prints with `%d` for a number of more than 64 bits: the greatest integer it has, a
greater one, or a word that is no number. -/
structure Awk where
  large : ℚ → Option ℤ
  large_ge : ∀ q, 2 ^ 64 ≤ q → ∀ n ∈ large q, 2 ^ 64 - 1 ≤ n

/-- An awk that stops at the greatest integer of 64 bits. -/
def Awk.capped : Awk where
  large _ := some (2 ^ 64 - 1)
  large_ge := by
    rintro q - n ⟨⟩
    exact le_rfl

/-- What a calibration is started with, its `awk`, and the control arm: the p99 that a probe measures
at each rate.  A rate is a number of requests; the first one is an integer of the shell. -/
structure Settings where
  awk : Awk
  sweepStart : ℤ
  sweepFactor : ℚ
  sweepMax : ℤ
  refinePct : ℚ
  p99Target : ℚ
  p99 : ℤ → ℚ
  start_nonneg : 0 ≤ sweepStart
  start_lt : sweepStart < 2 ^ 63
  factor_nonneg : 0 ≤ sweepFactor

/-- The rate that passed and the rate that failed. -/
structure Bracket where
  best : ℤ
  worst : ℤ
  deriving DecidableEq

/-- Where the script stands: in the sweep, with the rate that passed if one did, in the refinement,
or at its end. -/
inductive Phase where
  | sweep (rate : ℤ) (best : Option ℤ)
  | refine (bracket : Bracket)
  | frozen (rate : ℤ)
  | died
  deriving DecidableEq

/-- The script, and the rates in `rate-sweep.csv`. -/
structure State where
  phase : Phase
  csv : List ℤ
  deriving DecidableEq

/-- `calibration_passes`. -/
def calibrationPasses (p99 target : ℚ) : Bool := (toDouble p99).le (toDouble target)

/-- A number as the shell reads it: an integer of 64 bits, which wraps around. -/
def shell (n : ℤ) : ℤ := Int.bmod n (2 ^ 64)

/-- The awk product `r * f`, truncated. -/
def nextRate (factor : ℚ) (rate : ℤ) : ℤ := truncate (nearest (nearest rate * nearest factor))

/-- `(best + worst) / 2` in 64 bits. -/
def midpoint (k : Bracket) : ℤ := (shell (k.best + k.worst)).tdiv 2

/-- The awk comparison `(w - b) > (b * pct / 100)`. -/
def wide (pct : ℚ) (k : Bracket) : Bool :=
  let product := ((toDouble pct).scale (nearest k.best)).rounded
  (product.scale (1 / 100)).rounded.lt (toDouble (nearest k.worst - nearest k.best))

namespace Settings

variable (s : Settings)

/-- Whether a probe at a rate meets the target. -/
def passes (rate : ℤ) : Bool := calibrationPasses (s.p99 rate) s.p99Target

/-- What `awk` prints for the product with `%d`. -/
def printedRate (rate : ℤ) : Option ℤ :=
  let product := nearest (nearest rate * nearest s.sweepFactor)
  if product < 2 ^ 64 then some (nextRate s.sweepFactor rate) else s.awk.large product

/-- Where the script starts. -/
def initial : State := ⟨.sweep s.sweepStart none, []⟩

/-- What follows the loops: the rate that passed is frozen. -/
def settle : Option ℤ → Phase
  | none => .died
  | some best => .frozen best

/-- One turn of a loop.  A word in the place of a rate is a variable that is not set, and the script
ends at it. -/
def step : State → Option State
  | ⟨.sweep rate best, csv⟩ =>
    if shell rate ≤ shell s.sweepMax then
      if s.passes rate then
        match s.printedRate rate with
        | none => some ⟨.died, csv ++ [rate]⟩
        | some next => some ⟨.sweep next (some rate), csv ++ [rate]⟩
      else
        match best with
        | none => some ⟨.died, csv ++ [rate]⟩
        | some b => some ⟨.refine ⟨b, rate⟩, csv ++ [rate]⟩
    else some ⟨settle best, csv⟩
  | ⟨.refine k, csv⟩ =>
    if wide s.refinePct k then
      let mid := midpoint k
      if shell k.best < mid then
        if s.passes mid then some ⟨.refine ⟨mid, k.worst⟩, csv ++ [mid]⟩
        else some ⟨.refine ⟨k.best, mid⟩, csv ++ [mid]⟩
      else some ⟨.frozen k.best, csv⟩
    else some ⟨.frozen k.best, csv⟩
  | ⟨.frozen _, _⟩ => none
  | ⟨.died, _⟩ => none

/-- The states that follow one another. -/
def Reaches : State → State → Prop := Relation.ReflTransGen fun x y => s.step x = some y

end Settings

/-! ### What it is for -/

/-- Within the percentage of the rate that passed, or of adjacent rates. -/
def Settled (pct : ℚ) (k : Bracket) : Prop :=
  ((k.worst - k.best : ℤ) : ℚ) ≤ k.best * pct / 100 ∨ k.worst = k.best + 1

namespace Settings

variable (s : Settings)

/-- The bracket that the sweep leaves, of a rate that passed and a higher one that failed. -/
structure Swept where
  bracket : Bracket
  csv : List ℤ
  left : ∃ rate best before, s.Reaches s.initial ⟨.sweep rate best, before⟩ ∧
    s.step ⟨.sweep rate best, before⟩ = some ⟨.refine bracket, csv⟩
  lt : bracket.best < bracket.worst

variable {s} in
/-- Where the refinement starts. -/
def Swept.state (c : s.Swept) : State := ⟨.refine c.bracket, c.csv⟩

/-- A rate that was probed and passed, and a higher one that was probed and failed. -/
structure Bracketed (k : Bracket) (csv : List ℤ) : Prop where
  lt : k.best < k.worst
  best_passes : s.passes k.best = true
  best_mem : k.best ∈ csv
  worst_fails : s.passes k.worst = false
  worst_mem : k.worst ∈ csv

/-- The refinement keeps the bracket one, and ends with a tight one, whose passing rate it freezes. -/
structure Refines (c : s.Swept) : Prop where
  bracketed : ∀ k csv, s.Reaches c.state ⟨.refine k, csv⟩ → s.Bracketed k csv
  ends : ∃ k csv, s.Reaches c.state ⟨.refine k, csv⟩ ∧
    s.step ⟨.refine k, csv⟩ = some ⟨.frozen k.best, csv⟩ ∧ Settled s.refinePct k

/-- What a calibration is relied on for. -/
structure Calibrates : Prop where
  refines : ∀ c : s.Swept, s.Refines c
  frozen : ∀ rate csv, s.Reaches s.initial ⟨.frozen rate, csv⟩ → rate ∈ csv ∧ s.passes rate = true

/-- The half of a bracket that the probe in its middle leaves. -/
def half (k : Bracket) : Bracket :=
  let mid := midpoint k
  if s.passes mid then ⟨mid, k.worst⟩ else ⟨k.best, mid⟩

/-- The bracket is halved: awk finds it too wide, and the midpoint is above the passing rate. -/
def GoesOn (k : Bracket) : Prop := wide s.refinePct k = true ∧ shell k.best < midpoint k

/-- The halving of the script. -/
def Halves (k k' : Bracket) : Prop := s.GoesOn k ∧ k' = s.half k

/-- The script stops at a bracket only if it is tight, and otherwise probes a rate below the failing one
and keeps the passing rate below it. -/
structure Narrows (k : Bracket) : Prop where
  goes : ¬Settled s.refinePct k → s.GoesOn k
  below : s.GoesOn k → midpoint k < k.worst
  ordered : s.GoesOn k → (s.half k).best < (s.half k).worst

/-- Two rates that the shell reads as they are: tight, or with a sum of 64 bits and too wide for `awk`
as well.  With another rate, what the wrapped numbers lead to. -/
def Halvable (k : Bracket) : Prop :=
  if 0 ≤ k.best ∧ k.worst < 2 ^ 63 then
    ¬Settled s.refinePct k → k.best + k.worst < 2 ^ 63 ∧ wide s.refinePct k = true
  else s.Narrows k

end Settings

/-! ### One turn -/

/-- What one turn of a loop can do. -/
inductive Turn (s : Settings) : State → State → Prop
  | raise {rate next : ℤ} {best : Option ℤ} {csv : List ℤ} (hmax : shell rate ≤ shell s.sweepMax)
      (hpass : s.passes rate = true) (hnext : s.printedRate rate = some next) :
      Turn s ⟨.sweep rate best, csv⟩ ⟨.sweep next (some rate), csv ++ [rate]⟩
  | word {rate : ℤ} {best : Option ℤ} {csv : List ℤ} (hmax : shell rate ≤ shell s.sweepMax)
      (hpass : s.passes rate = true) (hnext : s.printedRate rate = none) :
      Turn s ⟨.sweep rate best, csv⟩ ⟨.died, csv ++ [rate]⟩
  | missed {rate : ℤ} {csv : List ℤ} (hmax : shell rate ≤ shell s.sweepMax)
      (hfail : s.passes rate = false) : Turn s ⟨.sweep rate none, csv⟩ ⟨.died, csv ++ [rate]⟩
  | crossed {rate b : ℤ} {csv : List ℤ} (hmax : shell rate ≤ shell s.sweepMax)
      (hfail : s.passes rate = false) :
      Turn s ⟨.sweep rate (some b), csv⟩ ⟨.refine ⟨b, rate⟩, csv ++ [rate]⟩
  | past {rate : ℤ} {best : Option ℤ} {csv : List ℤ} (hmax : shell s.sweepMax < shell rate) :
      Turn s ⟨.sweep rate best, csv⟩ ⟨Settings.settle best, csv⟩
  | halve {k : Bracket} {csv : List ℤ} (hgo : s.GoesOn k) :
      Turn s ⟨.refine k, csv⟩ ⟨.refine (s.half k), csv ++ [midpoint k]⟩
  | freeze {k : Bracket} {csv : List ℤ} (hstop : ¬s.GoesOn k) :
      Turn s ⟨.refine k, csv⟩ ⟨.frozen k.best, csv⟩

section Turn

variable {s : Settings} {k : Bracket} {csv : List ℤ} {x y : State}

/-- One turn of the refinement. -/
theorem step_refine (s : Settings) (k : Bracket) (csv : List ℤ) :
    (s.GoesOn k ∧ s.step ⟨.refine k, csv⟩ = some ⟨.refine (s.half k), csv ++ [midpoint k]⟩) ∨
      ¬s.GoesOn k ∧ s.step ⟨.refine k, csv⟩ = some ⟨.frozen k.best, csv⟩ := by
  by_cases hgo : s.GoesOn k
  · refine .inl ⟨hgo, ?_⟩
    simp only [Settings.step, hgo.1, hgo.2, if_true, Settings.half]
    split_ifs <;> rfl
  · refine .inr ⟨hgo, ?_⟩
    unfold Settings.step
    dsimp only
    split_ifs with hwide hmid
    · exact absurd ⟨hwide, hmid⟩ hgo
    · exact absurd ⟨hwide, hmid⟩ hgo
    · rfl
    · rfl

theorem turn_of_step (h : s.step x = some y) : Turn s x y := by
  obtain ⟨phase, csv⟩ := x
  cases phase with
  | sweep rate best =>
    unfold Settings.step at h
    dsimp only at h
    split_ifs at h with hmax hpass
    · split at h <;> cases h
      · exact .word hmax hpass ‹_›
      · exact .raise hmax hpass ‹_›
    · cases best with
      | none =>
        cases h
        exact .missed hmax (Bool.eq_false_of_not_eq_true hpass)
      | some b =>
        cases h
        exact .crossed hmax (Bool.eq_false_of_not_eq_true hpass)
    · cases h
      exact .past (not_le.1 hmax)
  | refine k =>
    rcases step_refine s k csv with ⟨hgo, hstep⟩ | ⟨hstop, hstep⟩ <;> rw [hstep] at h <;> cases h
    · exact .halve hgo
    · exact .freeze hstop
  | frozen => cases h
  | died => cases h

/-- What the script knows at each of its places. -/
def Sound (s : Settings) : State → Prop
  | ⟨.sweep rate best, csv⟩ => 0 ≤ rate ∧ ∀ b ∈ best, 0 ≤ b ∧ b ∈ csv ∧ s.passes b = true
  | ⟨.refine k, csv⟩ =>
    (k.best ∈ csv ∧ s.passes k.best = true) ∧ k.worst ∈ csv ∧ s.passes k.worst = false
  | ⟨.frozen rate, csv⟩ => rate ∈ csv ∧ s.passes rate = true
  | ⟨.died, _⟩ => True

theorem nonneg_product {factor : ℚ} {rate : ℤ} (hfactor : 0 ≤ factor) (hrate : 0 ≤ rate) :
    0 ≤ nearest (rate : ℚ) * nearest factor :=
  mul_nonneg (nonneg_nearest (by exact_mod_cast hrate)) (nonneg_nearest hfactor)

theorem nextRate_eq_floor {factor : ℚ} {rate : ℤ} (hfactor : 0 ≤ factor) (hrate : 0 ≤ rate) :
    nextRate factor rate = ⌊nearest (nearest (rate : ℚ) * nearest factor)⌋ := by
  have hproduct := nonneg_nearest (nonneg_product hfactor hrate)
  rw [nextRate, truncate, if_neg (not_lt.2 hproduct)]

theorem nextRate_nonneg {factor : ℚ} {rate : ℤ} (hfactor : 0 ≤ factor) (hrate : 0 ≤ rate) :
    0 ≤ nextRate factor rate := by
  rw [nextRate_eq_floor hfactor hrate]
  exact Int.floor_nonneg.2 (nonneg_nearest (nonneg_product hfactor hrate))

theorem printedRate_nonneg {rate next : ℤ} (hrate : 0 ≤ rate) (h : s.printedRate rate = some next) :
    0 ≤ next := by
  unfold Settings.printedRate at h
  dsimp only at h
  split_ifs at h with hbits
  · cases h
    exact nextRate_nonneg s.factor_nonneg hrate
  · have := s.awk.large_ge _ (not_lt.1 hbits) next h
    omega

theorem Turn.sound (h : Turn s x y) (hx : Sound s x) : Sound s y := by
  cases h with
  | raise hmax hpass hnext =>
    refine ⟨printedRate_nonneg hx.1 hnext, ?_⟩
    rintro b ⟨⟩
    exact ⟨hx.1, by simp, hpass⟩
  | word => trivial
  | missed => trivial
  | crossed hmax hfail =>
    obtain ⟨-, hmem, hpass⟩ := hx.2 _ rfl
    exact ⟨⟨List.mem_append_left _ hmem, hpass⟩, by simp, hfail⟩
  | @past rate best csv hmax =>
    cases best with
    | none => trivial
    | some b => exact (hx.2 b rfl).2
  | halve hgo =>
    unfold Settings.half
    dsimp only
    split_ifs with hpass
    · exact ⟨⟨by simp, hpass⟩, List.mem_append_left _ hx.2.1, hx.2.2⟩
    · exact ⟨⟨List.mem_append_left _ hx.1.1, hx.1.2⟩, by simp, Bool.eq_false_of_not_eq_true hpass⟩
  | freeze => exact hx.1

theorem sound_of_reaches (h : s.Reaches x y) (hx : Sound s x) : Sound s y := by
  induction h with
  | refl => exact hx
  | tail _ hstep ih => exact (turn_of_step hstep).sound ih

theorem sound_initial (s : Settings) : Sound s s.initial := ⟨s.start_nonneg, fun _ h => by cases h⟩

end Turn

/-! ### The midpoint -/

section Midpoint

variable {s : Settings} {k : Bracket}

theorem shell_eq {n : ℤ} (hlow : -2 ^ 63 ≤ n) (hhigh : n < 2 ^ 63) : shell n = n :=
  Int.bmod_eq_of_le (by omega) (by omega)

theorem shell_range (n : ℤ) : -2 ^ 63 ≤ shell n ∧ shell n < 2 ^ 63 :=
  ⟨Int.le_bmod (by norm_num), Int.bmod_lt (by norm_num)⟩

/-- The shell rounds a half towards zero. -/
theorem tdiv_two (n : ℤ) : 0 ≤ n ∧ n.tdiv 2 = n / 2 ∨ n < 0 ∧ n.tdiv 2 = -(-n / 2) := by
  rcases lt_or_ge n 0 with hneg | hnonneg
  · refine .inr ⟨hneg, ?_⟩
    rw [← Int.tdiv_eq_ediv_of_nonneg (by omega), Int.neg_tdiv, neg_neg]
  · exact .inl ⟨hnonneg, Int.tdiv_eq_ediv_of_nonneg hnonneg⟩

theorem midpoint_range (k : Bracket) : -2 ^ 62 ≤ midpoint k ∧ midpoint k ≤ 2 ^ 62 := by
  have hrange := shell_range (k.best + k.worst)
  unfold midpoint
  rcases tdiv_two (shell (k.best + k.worst)) with h | h <;> omega

theorem midpoint_eq (hnonneg : 0 ≤ k.best) (hlt : k.best < k.worst)
    (hfits : k.best + k.worst < 2 ^ 63) : midpoint k = (k.best + k.worst) / 2 := by
  rw [midpoint, shell_eq (by omega) hfits, Int.tdiv_eq_ediv_of_nonneg (by omega)]

/-- A sum past the 64 bits wraps around. -/
theorem midpoint_nonpos (hlt : k.best < k.worst) (hbelow : k.worst < 2 ^ 63)
    (hover : 2 ^ 63 ≤ k.best + k.worst) : midpoint k ≤ 0 := by
  have hmod : shell (k.best + k.worst) = k.best + k.worst - 2 ^ 64 := by
    unfold shell Int.bmod
    dsimp only
    split_ifs <;> omega
  rw [midpoint, hmod]
  rcases tdiv_two (k.best + k.worst - 2 ^ 64) with h | h <;> omega

/-- The midpoint is never above the failing rate. -/
theorem midpoint_le (hlow : -2 ^ 62 ≤ k.best) (hlt : k.best < k.worst) : midpoint k ≤ k.worst := by
  have hrange := midpoint_range k
  by_cases hlarge : 2 ^ 62 ≤ k.worst
  · omega
  · rw [midpoint, shell_eq (by omega) (by omega)]
    rcases tdiv_two (k.best + k.worst) with h | h <;> omega

/-- Two rates that the shell reads as they are are halved as long as their sum is. -/
theorem lt_midpoint_iff (hnonneg : 0 ≤ k.best) (hlt : k.best < k.worst) (hbelow : k.worst < 2 ^ 63) :
    shell k.best < midpoint k ↔ k.best + k.worst < 2 ^ 63 ∧ k.worst ≠ k.best + 1 := by
  rw [shell_eq (by omega) (by omega)]
  by_cases hfits : k.best + k.worst < 2 ^ 63
  · rw [midpoint_eq hnonneg hlt hfits]
    omega
  · have := midpoint_nonpos hlt hbelow (not_lt.1 hfits)
    omega

/-- Halving narrows a bracket of two such rates where it goes on at every one that is not tight. -/
theorem narrows_iff_halvable (hlt : k.best < k.worst) : s.Narrows k ↔ s.Halvable k := by
  unfold Settings.Halvable
  split_ifs with hreads
  swap
  · rfl
  obtain ⟨hnonneg, hbelow⟩ := hreads
  have hmid := lt_midpoint_iff hnonneg hlt hbelow
  constructor
  · intro h hopen
    obtain ⟨hwide, hgo⟩ := h.goes hopen
    exact ⟨(hmid.1 hgo).1, hwide⟩
  · intro h
    have hbetween : s.GoesOn k → k.best < midpoint k ∧ midpoint k < k.worst := by
      intro hgo
      obtain ⟨hfits, hadj⟩ := hmid.1 hgo.2
      rw [midpoint_eq hnonneg hlt hfits]
      omega
    refine ⟨fun hopen => ?_, fun hgo => (hbetween hgo).2, fun hgo => ?_⟩
    · obtain ⟨hfits, hwide⟩ := h hopen
      exact ⟨hwide, hmid.2 ⟨hfits, fun hadj => hopen (.inr hadj)⟩⟩
    · obtain ⟨hbest, hworst⟩ := hbetween hgo
      unfold Settings.half
      dsimp only
      split_ifs
      · exact hworst
      · exact hbest

end Midpoint

/-! ### The refinement -/

section Refinement

variable {s : Settings} {c : s.Swept} {k k' : Bracket} {csv csv' : List ℤ} {x y : State}

theorem Settings.Swept.reaches (c : s.Swept) : s.Reaches s.initial c.state := by
  obtain ⟨rate, best, before, hreach, hstep⟩ := c.left
  exact hreach.tail hstep

/-- The sweep leaves the last two rates it probed. -/
theorem eq_of_crossed {rate : ℤ} {best : Option ℤ} {before : List ℤ}
    (h : s.step ⟨.sweep rate best, before⟩ = some ⟨.refine k, csv⟩) :
    best = some k.best ∧ rate = k.worst ∧ shell rate ≤ shell s.sweepMax := by
  unfold Settings.step at h
  dsimp only at h
  cases best with
  | none =>
    dsimp only [Settings.settle] at h
    split_ifs at h
    · split at h <;> cases h
    · cases h
    · cases h
  | some b =>
    dsimp only [Settings.settle] at h
    split_ifs at h with hmax
    · split at h <;> cases h
    · cases h
      exact ⟨rfl, rfl, hmax⟩
    · cases h

theorem Settings.Swept.best_nonneg (c : s.Swept) : 0 ≤ c.bracket.best := by
  obtain ⟨rate, best, before, hreach, hstep⟩ := c.left
  obtain ⟨rfl, -, -⟩ := eq_of_crossed hstep
  exact ((sound_of_reaches hreach (sound_initial s)).2 _ rfl).1

theorem reaches_of_halves (h : Relation.ReflTransGen s.Halves c.bracket k) :
    ∃ csv, s.Reaches c.state ⟨.refine k, csv⟩ := by
  induction h with
  | refl => exact ⟨c.csv, .refl⟩
  | tail _ hhalf ih =>
    obtain ⟨csv, hreach⟩ := ih
    obtain ⟨hgo, rfl⟩ := hhalf
    rcases step_refine s _ csv with ⟨-, hstep⟩ | ⟨hstop, -⟩
    · exact ⟨_, hreach.tail hstep⟩
    · exact absurd hgo hstop

/-- The refinement is at a bracket that halving leads to, or at its end. -/
def Halving (s : Settings) (start : Bracket) : State → Prop
  | ⟨.sweep _ _, _⟩ => False
  | ⟨.refine k, _⟩ => Relation.ReflTransGen s.Halves start k
  | ⟨.frozen _, _⟩ => True
  | ⟨.died, _⟩ => True

theorem halving_of_step {start : Bracket} (hx : Halving s start x) (h : s.step x = some y) :
    Halving s start y := by
  obtain ⟨phase, csv⟩ := x
  cases phase with
  | sweep => exact hx.elim
  | refine k =>
    rcases step_refine s k csv with ⟨hgo, hstep⟩ | ⟨-, hstep⟩ <;> rw [hstep] at h <;> cases h
    · exact hx.tail ⟨hgo, rfl⟩
    · trivial
  | frozen => cases h
  | died => cases h

theorem halves_of_reaches (h : s.Reaches c.state ⟨.refine k, csv⟩) :
    Relation.ReflTransGen s.Halves c.bracket k := by
  have hrun : ∀ {x y}, s.Reaches x y → Halving s c.bracket x → Halving s c.bracket y := by
    intro x y h hx
    induction h with
    | refl => exact hx
    | tail _ hstep ih => exact halving_of_step ih hstep
  exact hrun h .refl

/-- No bracket on the way has a rate far below zero. -/
theorem best_of_halves (h : Relation.ReflTransGen s.Halves c.bracket k) : -2 ^ 62 ≤ k.best := by
  induction h with
  | refl =>
    have := c.best_nonneg
    omega
  | tail _ hhalf ih =>
    obtain ⟨-, rfl⟩ := hhalf
    unfold Settings.half
    dsimp only
    split_ifs
    · exact (midpoint_range _).1
    · exact ih

theorem not_reaches_refine {rate : ℤ} : ¬s.Reaches ⟨.frozen rate, csv⟩ ⟨.refine k, csv'⟩ := by
  intro h
  rcases Relation.ReflTransGen.cases_head h with h | ⟨y, h, -⟩ <;> cases h

/-- The script ends with one bracket only. -/
theorem exit_unique (h : s.Reaches x ⟨.refine k, csv⟩) (h' : s.Reaches x ⟨.refine k', csv'⟩)
    (hexit : s.step ⟨.refine k, csv⟩ = some ⟨.frozen k.best, csv⟩)
    (hexit' : s.step ⟨.refine k', csv'⟩ = some ⟨.frozen k'.best, csv'⟩) : k = k' := by
  have hright : Relator.RightUnique fun x y => s.step x = some y :=
    fun _ _ _ hy hz => Option.some.inj (hy.symm.trans hz)
  have hstop : ∀ {k k' csv csv'}, s.step ⟨.refine k, csv⟩ = some ⟨.frozen k.best, csv⟩ →
      s.Reaches ⟨.refine k, csv⟩ ⟨.refine k', csv'⟩ → k = k' := by
    intro k k' csv csv' hexit h
    rcases Relation.ReflTransGen.cases_head h with h | ⟨y, hstep, hrest⟩
    · cases h
      rfl
    · rw [hexit] at hstep
      cases hstep
      exact absurd hrest not_reaches_refine
  rcases Relation.ReflTransGen.total_of_right_unique hright h h' with h | h
  · exact hstop hexit h
  · exact (hstop hexit' h).symm

/-- A bracket that halving leaves as it is is never left. -/
theorem stuck_of_fixed (hgo : s.GoesOn k) (hfixed : s.half k = k)
    (h : s.Reaches ⟨.refine k, csv⟩ ⟨.refine k', csv'⟩) : k' = k := by
  have hrun : ∀ {x y}, s.Reaches x y → (∃ csv, x = ⟨.refine k, csv⟩) → ∃ csv, y = ⟨.refine k, csv⟩ := by
    intro x y h hx
    induction h with
    | refl => exact hx
    | tail _ hstep ih =>
      obtain ⟨csv, rfl⟩ := ih
      rcases step_refine s k csv with ⟨-, hnext⟩ | ⟨hstop, -⟩
      · rw [hnext, hfixed] at hstep
        cases hstep
        exact ⟨_, rfl⟩
      · exact absurd hgo hstop
  obtain ⟨csv'', heq⟩ := hrun h ⟨csv, rfl⟩
  cases heq
  rfl

/-- A refinement that does what it is for narrows every bracket on its way. -/
theorem narrows_of_refines (href : s.Refines c)
    (h : Relation.ReflTransGen s.Halves c.bracket k) : s.Narrows k := by
  obtain ⟨csv, hreach⟩ := reaches_of_halves h
  have hbracketed := href.bracketed k csv hreach
  obtain ⟨k', csv', hend, hexit, hsettled⟩ := href.ends
  have hstep := step_refine s k csv
  refine ⟨fun hopen => ?_, fun hgo => ?_, fun hgo => ?_⟩
  · rcases hstep with ⟨hgo, -⟩ | ⟨-, hstop⟩
    · exact hgo
    · exact absurd (exit_unique hreach hend hstop hexit ▸ hsettled) hopen
  · refine lt_of_le_of_ne (midpoint_le (best_of_halves h) hbracketed.lt) fun heq => ?_
    -- the failing rate is probed again, and the script stays where it is
    have hfixed : s.half k = k := by
      unfold Settings.half
      dsimp only
      rw [heq, hbracketed.worst_fails, if_neg Bool.false_ne_true]
    have hright : Relator.RightUnique fun x y => s.step x = some y :=
      fun _ _ _ hy hz => Option.some.inj (hy.symm.trans hz)
    rcases Relation.ReflTransGen.total_of_right_unique hright hreach hend with hrest | hrest
    · obtain rfl := stuck_of_fixed hgo hfixed hrest
      rcases step_refine s k' csv' with ⟨-, hnext⟩ | ⟨hstop, -⟩
      · rw [hnext] at hexit
        cases hexit
      · exact hstop hgo
    · rcases Relation.ReflTransGen.cases_head hrest with hsame | ⟨_, hnext, hrest⟩
      · cases hsame
        rcases hstep with ⟨-, hnext⟩ | ⟨hstop, -⟩
        · rw [hnext] at hexit
          cases hexit
        · exact hstop hgo
      · rw [hexit] at hnext
        cases hnext
        exact not_reaches_refine hrest
  · rcases hstep with ⟨-, hnext⟩ | ⟨hstop, -⟩
    · exact (href.bracketed _ _ (hreach.tail hnext)).lt
    · exact absurd hgo hstop

/-- The width of the bracket is the measure. -/
theorem ends_of_narrows (hlow : -2 ^ 62 ≤ k.best) (hbelow : k.best < 2 ^ 63)
    (h : ∀ k', Relation.ReflTransGen s.Halves k k' → s.Narrows k') :
    ∃ k' csv', s.Reaches ⟨.refine k, csv⟩ ⟨.refine k', csv'⟩ ∧
      s.step ⟨.refine k', csv'⟩ = some ⟨.frozen k'.best, csv'⟩ ∧ Settled s.refinePct k' := by
  -- on the width of the bracket, which every halving lessens
  induction hn : (k.worst - k.best).toNat using Nat.strong_induction_on generalizing k csv with
  | _ n ih =>
    have hnarrows := h k .refl
    rcases step_refine s k csv with ⟨hgo, hstep⟩ | ⟨hstop, hexit⟩
    · have hbest : k.best < midpoint k := by
        have := hgo.2
        rwa [shell_eq (by omega) hbelow] at this
      have hworst := hnarrows.below hgo
      have hrange := midpoint_range k
      have hhalf : -2 ^ 62 ≤ (s.half k).best ∧ (s.half k).best < 2 ^ 63 ∧
          ((s.half k).worst - (s.half k).best).toNat < n := by
        rw [← hn]
        unfold Settings.half
        dsimp only
        split_ifs <;> dsimp only <;> omega
      obtain ⟨k', csv', hreach, hend⟩ :
          ∃ k' csv', s.Reaches ⟨.refine (s.half k), csv ++ [midpoint k]⟩ ⟨.refine k', csv'⟩ ∧ _ :=
        ih _ hhalf.2.2 hhalf.1 hhalf.2.1 (fun k' hk' => h k' (.head ⟨hgo, rfl⟩ hk')) rfl
      exact ⟨k', csv', .head hstep hreach, hend⟩
    · refine ⟨k, csv, .refl, hexit, ?_⟩
      by_contra hopen
      exact hstop (hnarrows.goes hopen)

theorem lt_of_halves (h : ∀ k, Relation.ReflTransGen s.Halves c.bracket k → k.best < k.worst →
    s.Narrows k) (hk : Relation.ReflTransGen s.Halves c.bracket k) : k.best < k.worst := by
  induction hk with
  | refl => exact c.lt
  | tail hk hhalf ih =>
    obtain ⟨hgo, rfl⟩ := hhalf
    exact (h _ hk ih).ordered hgo

theorem refines_of_narrows (h : ∀ k, Relation.ReflTransGen s.Halves c.bracket k →
    k.best < k.worst → s.Narrows k) : s.Refines c := by
  have hnarrows : ∀ k, Relation.ReflTransGen s.Halves c.bracket k → s.Narrows k :=
    fun k hk => h k hk (lt_of_halves h hk)
  constructor
  · intro k csv hreach
    obtain ⟨⟨hbest, hpass⟩, hworst, hfail⟩ :=
      sound_of_reaches (c.reaches.trans hreach) (sound_initial s)
    exact ⟨lt_of_halves h (halves_of_reaches hreach), hpass, hbest, hfail, hworst⟩
  by_cases hbelow : c.bracket.best < 2 ^ 63
  · exact ends_of_narrows (by have := c.best_nonneg; omega) hbelow hnarrows
  -- a passing rate that the shell does not read: the first midpoint is far below it
  rcases step_refine s c.bracket c.csv with ⟨hgo, hstep⟩ | ⟨hstop, hexit⟩
  · have hrange := midpoint_range c.bracket
    have hordered := (hnarrows _ .refl).ordered hgo
    have hhalf : -2 ^ 62 ≤ (s.half c.bracket).best ∧ (s.half c.bracket).best < 2 ^ 63 := by
      unfold Settings.half at hordered ⊢
      dsimp only at hordered ⊢
      split_ifs at hordered ⊢ <;> dsimp only at hordered ⊢ <;> omega
    obtain ⟨k', csv', hreach, hend⟩ : ∃ k' csv',
        s.Reaches ⟨.refine (s.half c.bracket), c.csv ++ [midpoint c.bracket]⟩ ⟨.refine k', csv'⟩ ∧ _ :=
      ends_of_narrows hhalf.1 hhalf.2 fun k' hk' => hnarrows k' (.head ⟨hgo, rfl⟩ hk')
    exact ⟨k', csv', .head hstep hreach, hend⟩
  · refine ⟨c.bracket, c.csv, .refl, hexit, ?_⟩
    by_contra hopen
    exact hstop ((hnarrows _ .refl).goes hopen)

/-- **When the refinement ends tight.** -/
theorem calibrates_iff (s : Settings) : s.Calibrates ↔
    ∀ c : s.Swept, ∀ k, Relation.ReflTransGen s.Halves c.bracket k → s.Halvable k := by
  constructor
  · intro h c k hk
    obtain ⟨csv, hreach⟩ := reaches_of_halves hk
    have hlt := ((h.refines c).bracketed k csv hreach).lt
    exact (narrows_iff_halvable hlt).1 (narrows_of_refines (h.refines c) hk)
  · intro h
    refine ⟨fun c => refines_of_narrows fun k hk hlt => (narrows_iff_halvable hlt).2 (h c k hk), ?_⟩
    exact fun rate csv hreach => sound_of_reaches hreach (sound_initial s)

/-- A bracket of rates in their range. -/
structure InRange (k : Bracket) : Prop where
  nonneg : 0 ≤ k.best
  lt : k.best < k.worst
  below : k.worst < 2 ^ 63

/-- With rates of at most forty bits and a whole percentage awk rounds nothing but the quotient. -/
theorem wide_eq {p : ℕ} (hp : p ≤ 100) (hk : InRange k) (hworst : k.worst ≤ 2 ^ 40) :
    wide p k = decide (nearest ((p * k.best : ℤ) * (1 / 100)) < (k.worst - k.best : ℤ)) := by
  obtain ⟨hnonneg, hlt, -⟩ := hk
  have hproduct : 0 ≤ (p : ℤ) * k.best ∧ (p : ℤ) * k.best ≤ 100 * 2 ^ 40 :=
    ⟨by positivity, mul_le_mul (by omega) (by omega) hnonneg (by norm_num)⟩
  have hfloat : ∀ n : ℤ, 0 ≤ n → n ≤ 100 * 2 ^ 40 → |n| ≤ 2 ^ 53 := fun n h h' => by
    rw [abs_of_nonneg h]
    omega
  have hsmall : |((p * k.best : ℤ) : ℚ) * (1 / 100)| ≤ 2 ^ 1000 := by
    have hle : ((p * k.best : ℤ) : ℚ) ≤ 100 * 2 ^ 40 := by exact_mod_cast hproduct.2
    rw [abs_of_nonneg (mul_nonneg (by exact_mod_cast hproduct.1) (by norm_num))]
    calc ((p * k.best : ℤ) : ℚ) * (1 / 100) ≤ 2 ^ 40 := by linarith
      _ ≤ 2 ^ 1000 := pow_le_pow_right₀ one_le_two (by omega)
  unfold wide
  rw [nearest_intCast (hfloat _ hnonneg (by omega)), nearest_intCast (hfloat k.worst (by omega)
    (by omega)), ← Int.cast_sub, toDouble_intCast (hfloat _ (by omega) (by omega)),
    ← Int.cast_natCast, toDouble_intCast (hfloat p (by omega) (by omega))]
  simp only [Float.scale, Float.rounded]
  rw [← Int.cast_mul, toDouble_intCast (hfloat _ hproduct.1 hproduct.2)]
  dsimp only
  rw [toDouble_eq_nearest hsmall]
  rfl

/-- Rounding a number of at most forty bits adds less than a hundredth. -/
theorem nearest_lt_add {x : ℚ} (hnonneg : 0 ≤ x) (hle : x ≤ 2 ^ 40) : nearest x < x + 1 / 100 := by
  have hulp : (2 : ℚ) ^ ulpExponent x ≤ 2 ^ (-12 : ℤ) := by
    refine zpow_le_zpow_right₀ one_le_two ?_
    by_cases hzero : x = 0
    · rw [hzero, ulpExponent, abs_zero, Int.log_zero_right]
      omega
    · refine (ulpExponent_mono (abs_pos.2 hzero) (q := 2 ^ 40) ?_).trans (by decide +kernel)
      rwa [abs_of_nonneg hnonneg, abs_of_nonneg (by positivity)]
  have hround := (abs_le.1 (abs_nearest_sub_le x)).2
  norm_num at hulp
  linarith

/-- A bracket that is not tight is a hundredth wider than a whole percentage of its passing rate. -/
theorem add_le_width {p : ℕ} (hopen : ¬Settled p k) :
    ((p * k.best : ℤ) : ℚ) * (1 / 100) + 1 / 100 ≤ (k.worst - k.best : ℤ) := by
  have hint : (p : ℤ) * k.best < 100 * (k.worst - k.best) := by
    by_contra hle
    refine hopen (.inl ?_)
    have hcast : ((100 * (k.worst - k.best) : ℤ) : ℚ) ≤ (p * k.best : ℤ) := by
      exact_mod_cast not_lt.1 hle
    push_cast at hcast ⊢
    linarith
  have hcast : ((p * k.best + 1 : ℤ) : ℚ) ≤ (100 * (k.worst - k.best) : ℤ) := by
    exact_mod_cast hint
  push_cast at hcast ⊢
  linarith

/-- With such rates and such a percentage awk finds every bracket too wide that is not tight. -/
theorem wide_of_open {p : ℕ} (hp : p ≤ 100) (hk : InRange k) (hworst : k.worst ≤ 2 ^ 40)
    (hopen : ¬Settled p k) : wide p k = true := by
  rw [wide_eq hp hk hworst, decide_eq_true_eq]
  obtain ⟨hnonneg, hlt, -⟩ := hk
  have hproduct : (p : ℤ) * k.best ≤ 100 * 2 ^ 40 :=
    mul_le_mul (by omega) (by omega) hnonneg (by norm_num)
  have hle : ((p * k.best : ℤ) : ℚ) ≤ 100 * 2 ^ 40 := by exact_mod_cast hproduct
  have hround : nearest ((p * k.best : ℤ) * (1 / 100)) < (p * k.best : ℤ) * (1 / 100) + 1 / 100 :=
    nearest_lt_add (mul_nonneg (by exact_mod_cast (by positivity : 0 ≤ (p : ℤ) * k.best))
      (by norm_num)) (by linarith)
  exact hround.trans_le (add_le_width hopen)

/-- Products of forty and of twenty bits have sixty. -/
theorem nearest_product_le {factor : ℚ} {rate : ℤ} (hfactor : 0 ≤ factor) (hsmall : factor ≤ 2 ^ 20)
    (hrate : 0 ≤ rate) (hle : rate ≤ 2 ^ 40) :
    nearest (nearest rate * nearest factor) ≤ 2 ^ 60 := by
  have hread : nearest (factor : ℚ) ≤ 2 ^ 20 := by
    simpa using nearest_le (k := 1) (e := 20) (by norm_num) (by norm_num)
      (show factor ≤ ((1 : ℤ) : ℚ) * 2 ^ (20 : ℤ) by simpa using hsmall)
  have hproduct : nearest (rate : ℚ) * nearest factor ≤ 2 ^ 60 := by
    rw [nearest_intCast (by rw [abs_of_nonneg hrate]; omega)]
    calc (rate : ℚ) * nearest factor ≤ 2 ^ 40 * 2 ^ 20 := by
          gcongr
          · exact nonneg_nearest hfactor
          · exact_mod_cast hle
      _ = 2 ^ 60 := by norm_num
  simpa using nearest_le (k := 1) (e := 60) (by norm_num) (by norm_num)
    (show _ ≤ ((1 : ℤ) : ℚ) * 2 ^ (60 : ℤ) by simpa using hproduct)

/-- With a maximum of forty bits and a factor of twenty the shell reads every rate of the sweep as it
is. -/
def Reads : State → Prop
  | ⟨.sweep rate _, _⟩ => 0 ≤ rate ∧ rate < 2 ^ 63
  | ⟨.refine _, _⟩ => True
  | ⟨.frozen _, _⟩ => True
  | ⟨.died, _⟩ => True

theorem reads_of_reaches (hmax : shell s.sweepMax ≤ 2 ^ 40) (hfactor : s.sweepFactor ≤ 2 ^ 20)
    (h : s.Reaches s.initial x) : Reads x := by
  induction h with
  | refl => exact ⟨s.start_nonneg, s.start_lt⟩
  | tail _ hstep ih =>
    cases turn_of_step hstep with
    | @raise rate next best csv hrate hpass hnext =>
      obtain ⟨hnonneg, hlt⟩ := ih
      rw [shell_eq (by omega) hlt] at hrate
      have hproduct := nearest_product_le s.factor_nonneg hfactor hnonneg (hrate.trans hmax)
      have hbits : nearest (nearest (rate : ℚ) * nearest s.sweepFactor) < 2 ^ 64 :=
        hproduct.trans_lt (by norm_num)
      unfold Settings.printedRate at hnext
      dsimp only at hnext
      rw [if_pos hbits, Option.some.injEq] at hnext
      obtain rfl := hnext
      refine ⟨nextRate_nonneg s.factor_nonneg hnonneg, ?_⟩
      rw [nextRate_eq_floor s.factor_nonneg hnonneg]
      exact Int.floor_lt.2 (hproduct.trans_lt (by norm_num))
    | word => trivial
    | missed => trivial
    | crossed => trivial
    | @past rate best csv hrate => cases best <;> trivial
    | halve => trivial
    | freeze => trivial

/-- **With such rates and such a percentage a calibration always ends tight.** -/
theorem calibrates_of_whole_percent {p : ℕ} (hpct : s.refinePct = p) (hp : p ≤ 100)
    (hmax : shell s.sweepMax ≤ 2 ^ 40) (hfactor : s.sweepFactor ≤ 2 ^ 20) : s.Calibrates := by
  rw [calibrates_iff]
  intro c k hk
  have hrange : InRange k ∧ k.worst ≤ 2 ^ 40 := by
    induction hk with
    | refl =>
      obtain ⟨rate, best, before, hreach, hstep⟩ := c.left
      obtain ⟨-, rfl, hrate⟩ := eq_of_crossed hstep
      obtain ⟨hnonneg, hlt⟩ := reads_of_reaches hmax hfactor hreach
      rw [shell_eq (by omega) hlt] at hrate
      exact ⟨⟨c.best_nonneg, c.lt, hlt⟩, hrate.trans hmax⟩
    | tail _ hhalf ih =>
      obtain ⟨⟨hnonneg, hlt, hbelow⟩, hle⟩ := ih
      obtain ⟨hgo, rfl⟩ := hhalf
      obtain ⟨hfits, hadj⟩ := (lt_midpoint_iff hnonneg hlt hbelow).1 hgo.2
      have hmid := midpoint_eq hnonneg hlt hfits
      unfold Settings.half
      dsimp only
      split_ifs
      · exact ⟨⟨by dsimp only; omega, by dsimp only; omega, hbelow⟩, hle⟩
      · exact ⟨⟨hnonneg, by dsimp only; omega, by dsimp only; omega⟩, by dsimp only; omega⟩
  obtain ⟨hrange, hworst⟩ := hrange
  unfold Settings.Halvable
  rw [if_pos ⟨hrange.nonneg, hrange.below⟩, hpct]
  intro hopen
  exact ⟨by have := hrange.lt; omega, wide_of_open hp hrange hworst hopen⟩

/-- The factor that the sweep has where none is set. -/
theorem defaultFactor_nonneg : (0 : ℚ) ≤ 3 / 2 := by norm_num

/-- A sweep from `2 ^ 62` with the factor 1.5, of which only the first probe passes. -/
def farApart : Settings where
  awk := .capped
  sweepStart := 2 ^ 62
  sweepFactor := 3 / 2
  sweepMax := 2 ^ 63 - 1
  refinePct := 5
  p99Target := 10
  p99 rate := if rate ≤ 2 ^ 62 then 1 else 20
  start_nonneg := by decide
  start_lt := by decide
  factor_nonneg := defaultFactor_nonneg

/-- What that sweep leaves. -/
def farApartSwept : farApart.Swept where
  bracket := ⟨2 ^ 62, 3 * 2 ^ 61⟩
  csv := [2 ^ 62, 3 * 2 ^ 61]
  left := ⟨3 * 2 ^ 61, some (2 ^ 62), [2 ^ 62], .single (by decide +kernel), by decide +kernel⟩
  lt := by decide

/-- The sum of the two rates has 64 bits, and the refinement stops at once. -/
theorem stops_at_once : ¬farApart.Calibrates := by
  intro h
  obtain ⟨k, csv, hreach, hexit, hsettled⟩ := (h.refines farApartSwept).ends
  have hfirst : farApart.step ⟨.refine ⟨2 ^ 62, 3 * 2 ^ 61⟩, [2 ^ 62, 3 * 2 ^ 61]⟩ =
      some ⟨.frozen (2 ^ 62), [2 ^ 62, 3 * 2 ^ 61]⟩ := by decide +kernel
  obtain rfl := exit_unique hreach .refl hexit hfirst
  have hopen : ¬Settled 5 ⟨2 ^ 62, 3 * 2 ^ 61⟩ := by norm_num [Settled]
  exact hopen hsettled

end Refinement

end Calibrate

end LinuxSched

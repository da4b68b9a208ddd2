import K8Labs.LinuxSched.SampleSize
import Mathlib.Data.NNRat.Defs

/-!
# The required number of blocks

`required_n_paired` of `research/linux-sched/analysis/sched_analysis.py`, with the bound of its
search as an argument; the sample-size plans leave it at its default.

The right-hand side of the inequality depends on the number of blocks through the quantiles.  The
search tries every number in turn, so that it finds the least one also where the quantiles do not
decrease.

* `requiredNPaired_correct` : **the count is the least one that is enough, it does not decrease with
  the standard deviation, and there is none when no number up to the bound is enough.**
-/

namespace LinuxSched

namespace RequiredBlocks

open Py

open SchedAnalysis (minBlocksForVerdict)

open FactorialSampleSize (requiredLoop)

open SampleSize (rootAt rootAt_mono requiredLoop_succ_eq_ok)

variable (maths : Maths ℚ)

/-! ### The search -/

/-- `required_n_paired`. -/
def requiredNPaired (sdLogRatio practicalEffect alpha power : ℚ) (maxN : ℤ) : Except Exc ℕ :=
  if sdLogRatio ≤ 0 then .ok minBlocksForVerdict
  else
    (maths.logOf (1 + practicalEffect)).bind fun delta =>
      requiredLoop maths maxN sdLogRatio delta alpha power
        (maxN + 1 - minBlocksForVerdict).toNat minBlocksForVerdict

/-! ### What it is for -/

/-- The number of blocks is at least the size that the formula asks for, with the quantiles for that
number.  With no spread it asks for none. -/
def Enough (effect alpha power : ℚ) (sd : NNRat) (n : ℕ) : Prop :=
  sd = 0 ∨ ∃ delta root, maths.logOf (1 + effect) = .ok delta ∧
    rootAt maths sd delta alpha power n = .ok root ∧ root ^ 2 ≤ n

/-- A count for every standard deviation is the one to plan with. -/
structure Correct (enough : NNRat → ℕ → Prop) (maxN : ℤ) (required : NNRat → Except Exc ℕ) : Prop where
  least : ∀ sd n, required sd = .ok n → IsLeast {n | 3 ≤ n ∧ enough sd n} n
  found : ∀ sd (n : ℕ), 3 ≤ n → n ≤ maxN → enough sd n → ∃ n', required sd = .ok n'
  monotone : ∀ sd sd' n', sd ≤ sd' → required sd' = .ok n' → ∃ n ≤ n', required sd = .ok n
  /-- No spread needs no search. -/
  raises : ∀ sd, (∀ n : ℕ, 3 ≤ n → n ≤ maxN → ¬enough sd n) → sd ≠ 0 ∨ 3 ≤ maxN →
    ∃ e, required sd = .error e

/-! ### Where the search ends -/

section Search

variable {maths} {maxN : ℤ} {sd : ℚ} {delta alpha power root : ℚ} {n m left required : ℕ}

theorem tPpf_isOk (maths : Maths ℚ) (p : ℚ) {df : ℕ} (hdf : 2 ≤ df) :
    (∃ t, tPpf maths p df = .ok t) ↔ 0 < p ∧ p < 1 := by
  unfold tPpf
  by_cases hp : 0 < p ∧ p < 1
  · rw [if_neg (not_not.2 hp), if_neg (by omega)]
    exact iff_of_true ⟨_, rfl⟩ hp
  · rw [if_pos hp]
    exact iff_of_false (by rintro ⟨_, ⟨⟩⟩) hp

/-- Whether there is a size at all does not depend on the spread and the number of blocks. -/
theorem rootAt_isOk (hn : 3 ≤ n) :
    (∃ root, rootAt maths sd delta alpha power n = .ok root) ↔
      (0 < 1 - alpha / 2 ∧ 1 - alpha / 2 < 1) ∧ (0 < power ∧ power < 1) ∧ delta ≠ 0 := by
  have hdf : 2 ≤ n - 1 := by omega
  rw [← tPpf_isOk maths (1 - alpha / 2) hdf, ← tPpf_isOk maths power hdf]
  unfold rootAt
  constructor
  · rintro ⟨root, h⟩
    obtain ⟨tAlpha, ht, h⟩ := bind_eq_ok.1 h
    obtain ⟨tBeta, ht', h⟩ := bind_eq_ok.1 h
    refine ⟨⟨tAlpha, ht⟩, ⟨tBeta, ht'⟩, fun hzero => ?_⟩
    rw [div, if_pos hzero] at h
    cases h
  · rintro ⟨⟨tAlpha, ht⟩, ⟨tBeta, ht'⟩, hdelta⟩
    refine ⟨(tAlpha + tBeta) * sd / delta, bind_eq_ok.2 ⟨tAlpha, ht, bind_eq_ok.2 ⟨tBeta, ht', ?_⟩⟩⟩
    rw [div, if_neg hdelta]

/-- The size for `n` blocks is at most `n`. -/
def Fits (maths : Maths ℚ) (sd delta alpha power : ℚ) (n : ℕ) : Prop :=
  ∃ root, rootAt maths sd delta alpha power n = .ok root ∧ root ^ 2 ≤ n

/-- **The search finds the first number that fits**, of those it tries. -/
theorem requiredLoop_eq_ok_iff (hn : 3 ≤ n) :
    requiredLoop maths maxN sd delta alpha power left n = .ok required ↔
      (n ≤ required ∧ required < n + left) ∧ Fits maths sd delta alpha power required ∧
        ∀ m, n ≤ m → m < required → ¬Fits maths sd delta alpha power m := by
  induction left generalizing n with
  | zero => exact iff_of_false (by rintro ⟨⟩) fun h => by omega
  | succ left ih =>
    rw [requiredLoop_succ_eq_ok]
    simp only [ih (hn.trans (Nat.le_succ n))]
    constructor
    · rintro ⟨root, hroot, ⟨henough, rfl⟩ | ⟨hmore, ⟨hle, hlt⟩, hfits, hfirst⟩⟩
      · exact ⟨⟨le_rfl, by omega⟩, ⟨root, hroot, henough⟩, fun m hm hm' => by omega⟩
      · refine ⟨⟨by omega, by omega⟩, hfits, fun m hm hm' => ?_⟩
        rcases hm.eq_or_lt with rfl | hm
        · rintro ⟨root', hroot', henough⟩
          cases hroot.symm.trans hroot'
          exact hmore henough
        · exact hfirst m hm hm'
    · rintro ⟨⟨hle, hlt⟩, hfits, hfirst⟩
      obtain ⟨root, hroot⟩ := (rootAt_isOk hn).2 ((rootAt_isOk (hn.trans hle)).1
        (hfits.imp fun _ h => h.1))
      refine ⟨root, hroot, ?_⟩
      rcases hle.eq_or_lt with rfl | hle
      · obtain ⟨root', hroot', henough⟩ := hfits
        cases hroot.symm.trans hroot'
        exact .inl ⟨henough, rfl⟩
      · exact .inr ⟨fun henough => hfirst n le_rfl hle ⟨root, hroot, henough⟩, ⟨hle, by omega⟩, hfits,
          fun m hm hm' => hfirst m (by omega) hm'⟩

/-- What is enough for a spread is enough for a smaller one. -/
theorem Fits.of_le {upper : ℚ} (hsd : 0 ≤ sd) (hle : sd ≤ upper) (hn : 3 ≤ n)
    (h : Fits maths upper delta alpha power n) : Fits maths sd delta alpha power n := by
  obtain ⟨root', hroot', henough⟩ := h
  obtain ⟨root, hroot⟩ := (rootAt_isOk hn).2 ((rootAt_isOk hn).1 ⟨root', hroot'⟩)
  exact ⟨root, hroot, (rootAt_mono hsd hle hroot hroot').trans henough⟩

end Search

section Required

variable {maths} {effect alpha power : ℚ} {maxN : ℤ} {sd sd' : NNRat} {n required : ℕ}

theorem enough_zero : Enough maths effect alpha power 0 n := .inl rfl

theorem enough_iff (hsd : sd ≠ 0) : Enough maths effect alpha power sd n ↔
    ∃ delta, maths.logOf (1 + effect) = .ok delta ∧ Fits maths sd delta alpha power n := by
  rw [Enough, or_iff_right hsd]
  exact exists_congr fun delta => exists_and_left

theorem Enough.of_le (hle : sd ≤ sd') (hn : 3 ≤ n) (h : Enough maths effect alpha power sd' n) :
    Enough maths effect alpha power sd n := by
  by_cases hsd : sd = 0
  · exact .inl hsd
  · have hsd' : sd' ≠ 0 := fun h' => hsd (le_antisymm (h' ▸ hle) zero_le)
    obtain ⟨delta, hdelta, hfits⟩ := (enough_iff hsd').1 h
    exact (enough_iff hsd).2 ⟨delta, hdelta, hfits.of_le sd.2 (NNRat.coe_le_coe.2 hle) hn⟩

/-- **The count that is required**: the least one that is enough, up to the bound when there is a
spread. -/
theorem requiredNPaired_eq_ok_iff :
    requiredNPaired maths sd effect alpha power maxN = .ok required ↔
      IsLeast {n | 3 ≤ n ∧ Enough maths effect alpha power sd n} required ∧
        (sd ≠ 0 → required ≤ maxN) := by
  unfold requiredNPaired
  by_cases hsd : sd = 0
  · subst hsd
    rw [if_pos (by simp)]
    have hleast : IsLeast {n | 3 ≤ n ∧ Enough maths effect alpha power 0 n} 3 :=
      ⟨⟨le_rfl, enough_zero⟩, fun m hm => hm.1⟩
    rw [and_iff_left (fun h => absurd rfl h), Except.ok.injEq]
    exact ⟨fun h => h ▸ hleast, fun h => hleast.unique h⟩
  · rw [if_neg (not_le.2 (NNRat.coe_pos.2 (pos_of_ne_zero hsd))), bind_eq_ok, imp_iff_right hsd]
    simp only [requiredLoop_eq_ok_iff le_rfl, minBlocksForVerdict]
    constructor
    · rintro ⟨delta, hdelta, ⟨hle, hlt⟩, hfits, hfirst⟩
      refine ⟨⟨⟨hle, (enough_iff hsd).2 ⟨delta, hdelta, hfits⟩⟩, fun m ⟨hm, henough⟩ => ?_⟩, by omega⟩
      obtain ⟨delta', hdelta', hfits'⟩ := (enough_iff hsd).1 henough
      cases hdelta.symm.trans hdelta'
      by_contra hless
      exact hfirst m hm (not_le.1 hless) hfits'
    · rintro ⟨⟨⟨hle, henough⟩, hleast⟩, hbound⟩
      obtain ⟨delta, hdelta, hfits⟩ := (enough_iff hsd).1 henough
      refine ⟨delta, hdelta, ⟨hle, by omega⟩, hfits, fun m hm hless hfits' => ?_⟩
      exact not_le.2 hless (hleast ⟨hm, (enough_iff hsd).2 ⟨delta, hdelta, hfits'⟩⟩)

/-- The search of the sample-size plans is this one, with the bound of its default. -/
theorem requiredNPaired_default {sd : ℚ} (heffect : -1 < effect) :
    requiredNPaired maths sd effect alpha power 100000 = .ok required ↔
      FactorialSampleSize.requiredNPaired maths sd effect alpha power = .ok required := by
  have hlog : maths.logOf (1 + effect) = .ok (maths.log (1 + effect)) := if_neg (by linarith)
  unfold requiredNPaired FactorialSampleSize.requiredNPaired
  split_ifs with hsd
  · exact Iff.rfl
  · rw [hlog]
    exact Iff.rfl

/-- There is a least number that is enough when one up to the bound is. -/
theorem exists_requiredNPaired (hn : 3 ≤ n) (hbound : sd ≠ 0 → n ≤ maxN)
    (h : Enough maths effect alpha power sd n) :
    ∃ required ≤ n, requiredNPaired maths sd effect alpha power maxN = .ok required := by
  classical
  have hexists : ∃ n, 3 ≤ n ∧ Enough maths effect alpha power sd n := ⟨n, hn, h⟩
  have hmin : Nat.find hexists ≤ n := Nat.find_min' hexists ⟨hn, h⟩
  refine ⟨Nat.find hexists, hmin, requiredNPaired_eq_ok_iff.2 ⟨Nat.isLeast_find hexists, fun hsd => ?_⟩⟩
  exact (Int.ofNat_le.2 hmin).trans (hbound hsd)

/-- **The count to plan with**, for every effect, level and power and every bound. -/
theorem requiredNPaired_correct (maths : Maths ℚ) (effect alpha power : ℚ) (maxN : ℤ) :
    Correct (Enough maths effect alpha power) maxN fun sd =>
      requiredNPaired maths sd effect alpha power maxN where
  least sd n h := (requiredNPaired_eq_ok_iff.1 h).1
  found sd n hn hbound h := by
    obtain ⟨required, -, hrequired⟩ := exists_requiredNPaired hn (fun _ => hbound) h
    exact ⟨required, hrequired⟩
  monotone sd sd' n' hle h := by
    obtain ⟨⟨⟨hn, henough⟩, -⟩, hbound⟩ := requiredNPaired_eq_ok_iff.1 h
    refine exists_requiredNPaired hn (fun hsd => hbound fun hsd' => hsd ?_) (henough.of_le hle hn)
    exact le_antisymm (hsd' ▸ hle) zero_le
  raises sd hnone hsearch := by
    cases h : requiredNPaired maths sd effect alpha power maxN with
    | error e => exact ⟨e, rfl⟩
    | ok n =>
      -- a number that is returned is enough, and is no more than the bound or the least of all
      obtain ⟨⟨⟨hn, henough⟩, -⟩, hbound⟩ := requiredNPaired_eq_ok_iff.1 h
      rcases hsearch with hsd | hmin
      · exact absurd henough (hnone n hn (hbound hsd))
      · by_cases hsd : sd = 0
        · exact absurd (.inl hsd) (hnone 3 le_rfl hmin)
        · exact absurd henough (hnone n hn (hbound hsd))

end Required

end RequiredBlocks

end LinuxSched

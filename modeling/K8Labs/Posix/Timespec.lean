import Mathlib.Data.Int.Init
import Mathlib.Tactic.Linarith
import Mathlib.Tactic.Ring

/-!
# `struct timespec`

A time is a number of seconds and a number of nanoseconds below a second.  C programs add to the
nanoseconds and carry whole seconds over in a loop, and compare the two fields one after the other;
both agree with the time in nanoseconds, `Timespec.ns`.  The fields are not bounded.

`due` counts the deadlines of a period that lie before an end.
-/

namespace Posix

/-- `struct timespec`. -/
structure Timespec where
  sec : ℤ
  nsec : ℕ
  nsec_lt : nsec < 1000000000
  deriving DecidableEq

namespace Timespec

/-- The loop that carries whole seconds over. -/
def carry (sec : ℤ) (nsec : ℕ) : Timespec :=
  if h : 1000000000 ≤ nsec then carry (sec + 1) (nsec - 1000000000) else ⟨sec, nsec, not_le.1 h⟩
termination_by nsec

/-- `add_ns`. -/
def addNs (ts : Timespec) (ns : ℕ) : Timespec := carry ts.sec (ts.nsec + ns)

/-- `add_us`. -/
def addUs (ts : Timespec) (us : ℕ) : Timespec := ts.addNs (us * 1000)

/-- `cmp_ts`. -/
def cmp (a b : Timespec) : ℤ :=
  if a.sec ≠ b.sec then if a.sec < b.sec then -1 else 1
  else if a.nsec ≠ b.nsec then if a.nsec < b.nsec then -1 else 1
  else 0

/-- `diff_us`. -/
def diffUs (a b : Timespec) : ℤ :=
  (a.sec - b.sec) * 1000000 + ((a.nsec : ℤ) - b.nsec).tdiv 1000

/-- The time in nanoseconds. -/
def ns (ts : Timespec) : ℤ := ts.sec * 1000000000 + ts.nsec

/-- The time at a number of nanoseconds. -/
def ofNs (ns : ℕ) : Timespec := carry 0 ns

variable {a b ts : Timespec}

theorem ns_carry (sec : ℤ) (nsec : ℕ) : (carry sec nsec).ns = sec * 1000000000 + nsec := by
  induction sec, nsec using carry.induct with
  | case1 sec nsec h ih =>
    rw [carry, dif_pos h, ih, Nat.cast_sub h]
    push_cast
    ring
  | case2 sec nsec h =>
    rw [carry, dif_neg h]
    rfl

@[simp] theorem ns_addNs (ts : Timespec) (ns : ℕ) : (ts.addNs ns).ns = ts.ns + ns := by
  rw [addNs, ns_carry, Timespec.ns]
  push_cast
  ring

@[simp] theorem ns_addUs (ts : Timespec) (us : ℕ) : (ts.addUs us).ns = ts.ns + us * 1000 := by
  rw [addUs, ns_addNs]
  push_cast
  ring

@[simp] theorem ns_ofNs (ns : ℕ) : (ofNs ns).ns = ns := by
  rw [ofNs, ns_carry]
  ring

theorem ns_injective (h : a.ns = b.ns) : a = b := by
  obtain ⟨sec, nsec, hlt⟩ := a
  obtain ⟨sec', nsec', hlt'⟩ := b
  simp only [ns] at h
  obtain rfl : sec = sec' := by omega
  obtain rfl : nsec = nsec' := by omega
  rfl

/-- The comparison field by field is that of the times. -/
theorem cmp_cases (a b : Timespec) : a.ns < b.ns ∧ a.cmp b = -1 ∨ a.ns = b.ns ∧ a.cmp b = 0 ∨
    b.ns < a.ns ∧ a.cmp b = 1 := by
  have ha := a.nsec_lt
  have hb := b.nsec_lt
  unfold cmp ns
  split_ifs <;> omega

theorem cmp_neg_iff : a.cmp b < 0 ↔ a.ns < b.ns := by
  have := cmp_cases a b
  omega

theorem cmp_nonpos_iff : a.cmp b ≤ 0 ↔ a.ns ≤ b.ns := by
  have := cmp_cases a b
  omega

end Timespec

/-! ### Deadlines -/

/-- How many of the times `0`, `period`, `2 * period`, … lie before `span`. -/
def due (span period : ℕ) : ℕ := (span + period - 1) / period

theorem lt_due_iff {span period k : ℕ} (hpos : 0 < period) :
    k < due span period ↔ k * period < span := by
  rw [due, ← Nat.succ_le_iff, Nat.le_div_iff_mul_le hpos, Nat.succ_mul]
  omega

end Posix

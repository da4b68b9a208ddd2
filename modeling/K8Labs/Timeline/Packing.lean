import Mathlib.Algebra.BigOperators.Group.List.Basic
import Mathlib.Algebra.Order.BigOperators.Group.List
import Mathlib.Algebra.Order.Group.Defs
import Mathlib.Tactic.Abel

/-!
# Packed intervals

A list of intervals is *packed* between two instants when every interval lies between them, no two
intervals overlap, and their lengths add up to at most the distance of the two instants
(`Packed`).  An account that is only ever extended by intervals starting at or after the instant
up to which it is packed stays packed (`Packed.close`), whatever happened in between
(`Packed.mono`).
-/

namespace Timeline

variable {T : Type*} [AddCommGroup T] [LinearOrder T]

/-- Two intervals have at most an end in common. -/
def Apart (i j : T × T) : Prop := i.2 ≤ j.1 ∨ j.2 ≤ i.1

omit [AddCommGroup T] in
theorem Apart.symm {i j : T × T} (h : Apart i j) : Apart j i := Or.symm h

/-- The total length of the intervals. -/
def total (spans : List (T × T)) : T := (spans.map fun i => i.2 - i.1).sum

/-- The intervals lie between `lo` and `hi`, do not overlap, and are together no longer than the
distance of the two. -/
structure Packed (lo hi : T) (spans : List (T × T)) : Prop where
  inside : ∀ i ∈ spans, lo ≤ i.1 ∧ i.1 ≤ i.2 ∧ i.2 ≤ hi
  apart : spans.Pairwise Apart
  total_le : total spans ≤ hi - lo

theorem Packed.perm {lo hi : T} {spans spans' : List (T × T)} (h : Packed lo hi spans)
    (hp : spans'.Perm spans) : Packed lo hi spans' where
  inside i hi' := h.inside i (hp.subset hi')
  apart := hp.symm.pairwise h.apart fun hij => hij.symm
  total_le := by
    rw [total, (hp.map _).sum_eq]
    exact h.total_le

variable [IsOrderedAddMonoid T]

theorem packed_nil {lo hi : T} (h : lo ≤ hi) : Packed lo hi [] where
  inside := by simp
  apart := .nil
  total_le := by simpa [total] using h

theorem Packed.mono {lo hi hi' : T} {spans : List (T × T)} (h : Packed lo hi spans)
    (hle : hi ≤ hi') : Packed lo hi' spans where
  inside i hi := ⟨(h.inside i hi).1, (h.inside i hi).2.1, (h.inside i hi).2.2.trans hle⟩
  apart := h.apart
  total_le := h.total_le.trans (sub_le_sub_right hle lo)

/-- **Closing an interval.**  An account packed up to `start` takes an interval from `start` on. -/
theorem Packed.close {lo start stop : T} {spans : List (T × T)} (h : Packed lo start spans)
    (hlo : lo ≤ start) (hle : start ≤ stop) : Packed lo stop ((start, stop) :: spans) where
  inside := by
    rw [List.forall_mem_cons]
    exact ⟨⟨hlo, hle, le_rfl⟩, (h.mono hle).inside⟩
  apart := List.pairwise_cons.2 ⟨fun i hi => .inr (h.inside i hi).2.2, h.apart⟩
  total_le := by
    have hsum : total ((start, stop) :: spans) = stop - start + total spans := by simp [total]
    rw [hsum]
    calc stop - start + total spans ≤ stop - start + (start - lo) := by gcongr; exact h.total_le
      _ = stop - lo := by abel

end Timeline

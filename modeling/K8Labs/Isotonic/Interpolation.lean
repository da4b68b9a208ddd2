import Mathlib.Algebra.Order.Field.Basic
import Mathlib.Data.List.Chain
import Mathlib.Tactic.FieldSimp
import Mathlib.Tactic.Linarith
import Mathlib.Tactic.Positivity
import Mathlib.Tactic.Ring

/-!
# Piecewise linear interpolation over sorted knots

A list of knots `(x, v)` with strictly increasing abscissae is read by looking `x` up among the
knots and otherwise interpolating linearly in the first segment that contains it
(`interpolate`).  For knots whose values do not decrease (`Ascending`) the result is

* defined exactly between the first and the last abscissa (`interpolate_isSome_iff`),
* the knot's own value at a knot (`interpolate_knot`), and
* non-decreasing in the argument (`interpolate_mono`), so between two knots it lies between their
  values.

Knots with non-increasing values are covered by negating the values (`interpolate_neg`);
`DirectedKnots` states the results for both directions at once.
-/

namespace Isotonic

variable {K : Type*}

/-- Strictly increasing abscissae, non-decreasing values. -/
def Ascending [LinearOrder K] (knots : List (K × K)) : Prop :=
  knots.Pairwise fun p q => p.1 < q.1 ∧ p.2 ≤ q.2

theorem Ascending.tail [LinearOrder K] {p : K × K} {knots : List (K × K)}
    (h : Ascending (p :: knots)) : Ascending knots := (List.pairwise_cons.1 h).2

theorem Ascending.head_le [LinearOrder K] {p q : K × K} {knots : List (K × K)}
    (h : Ascending (p :: knots)) (hq : q ∈ p :: knots) : p.1 ≤ q.1 := by
  rcases List.mem_cons.1 hq with rfl | hq
  · exact le_rfl
  · exact ((List.pairwise_cons.1 h).1 q hq).1.le

variable [Field K]

/-- The value at `x` on the line through `(a, u)` and `(b, v)`. -/
def onSegment (a u b v x : K) : K := u + (x - a) / (b - a) * (v - u)

theorem onSegment_left (a u b v : K) : onSegment a u b v a = u := by simp [onSegment]

variable [LinearOrder K]

/-- Linear interpolation in the first segment that contains `x`. -/
def onSegments : List (K × K) → K → Option K
  | (a, u) :: (b, v) :: knots, x =>
    if a ≤ x ∧ x ≤ b then some (onSegment a u b v x) else onSegments ((b, v) :: knots) x
  | _, _ => none

/-- The value at `x`: that of the knot at `x`, or else interpolated. -/
def interpolate (knots : List (K × K)) (x : K) : Option K :=
  (knots.lookup x).orElse fun _ => onSegments knots x

/-- The knots mirrored at the abscissa axis. -/
def mirror (knots : List (K × K)) : List (K × K) := knots.map fun p => (p.1, -p.2)

theorem lookup_mirror (knots : List (K × K)) (x : K) :
    (mirror knots).lookup x = (knots.lookup x).map Neg.neg := by
  induction knots with
  | nil => rfl
  | cons p knots ih =>
    obtain ⟨a, u⟩ := p
    simp only [mirror, List.map_cons, List.lookup_cons] at ih ⊢
    cases x == a
    · exact ih
    · rfl

theorem onSegments_mirror (knots : List (K × K)) (x : K) :
    onSegments (mirror knots) x = (onSegments knots x).map Neg.neg := by
  induction knots with
  | nil => rfl
  | cons p knots ih =>
    cases knots with
    | nil => rfl
    | cons q knots =>
      simp only [mirror, List.map_cons, onSegments] at ih ⊢
      split_ifs
      · simp only [onSegment, Option.map_some, Option.some.injEq]; ring
      · exact ih

theorem interpolate_neg (knots : List (K × K)) (x : K) :
    interpolate (mirror knots) x = (interpolate knots x).map Neg.neg := by
  simp only [interpolate, lookup_mirror, onSegments_mirror]
  cases knots.lookup x <;> simp

/-! ### A list of knots -/

theorem interpolate_cons_left (a u : K) (knots : List (K × K)) :
    interpolate ((a, u) :: knots) a = some u := by
  simp [interpolate]

/-- Right of the first knot, the rest of the list decides, except inside the first segment. -/
theorem interpolate_cons_cons {a u b v : K} {knots : List (K × K)} {x : K}
    (h : Ascending ((a, u) :: (b, v) :: knots)) (hx : a < x) :
    interpolate ((a, u) :: (b, v) :: knots) x =
      if x < b then some (onSegment a u b v x) else interpolate ((b, v) :: knots) x := by
  have hxa : (x == a) = false := by simpa using hx.ne'
  simp only [interpolate, List.lookup_cons, hxa]
  split_ifs with hxb
  · -- no knot lies strictly inside the first segment
    have hnone : ((b, v) :: knots).lookup x = none := by
      rw [List.lookup_eq_none_iff]
      intro p hp
      simpa using (hxb.trans_le (h.tail.head_le hp)).ne
    rw [List.lookup_cons] at hnone
    simp [hnone, onSegments, hx.le, hxb.le]
  · push Not at hxb
    rcases eq_or_lt_of_le hxb with rfl | hbx
    · simp
    · simp [onSegments, not_le.2 hbx]

theorem interpolate_eq_none_of_lt {knots : List (K × K)} {a u x : K}
    (h : Ascending ((a, u) :: knots)) (hx : x < a) :
    interpolate ((a, u) :: knots) x = none := by
  have hlookup : ((a, u) :: knots).lookup x = none := by
    rw [List.lookup_eq_none_iff]
    intro p hp
    simpa using (hx.trans_le (h.head_le hp)).ne
  have hseg : onSegments ((a, u) :: knots) x = none := by
    clear hlookup
    induction knots generalizing a u with
    | nil => rfl
    | cons q knots ih =>
      obtain ⟨b, v⟩ := q
      have hab : a < b := ((List.pairwise_cons.1 h).1 _ List.mem_cons_self).1
      simp [onSegments, not_le.2 hx, ih h.tail (hx.trans hab)]
  simp [interpolate, hlookup, hseg]

theorem interpolate_singleton (a u x : K) :
    interpolate [(a, u)] x = if x = a then some u else none := by
  by_cases h : x = a
  · simp [interpolate, h]
  · have : (x == a) = false := by simpa using h
    simp [interpolate, List.lookup_cons, this, onSegments, h]

/-- **Interpolation is defined exactly between the first and the last knot.** -/
theorem interpolate_isSome_iff {p : K × K} {knots : List (K × K)} (h : Ascending (p :: knots))
    (x : K) : (interpolate (p :: knots) x).isSome ↔
      p.1 ≤ x ∧ x ≤ ((p :: knots).getLast (List.cons_ne_nil _ _)).1 := by
  induction knots generalizing p with
  | nil =>
    obtain ⟨a, u⟩ := p
    rw [interpolate_singleton]
    split_ifs with hx
    · simp [hx]
    · simp only [Option.isSome_none, Bool.false_eq_true, List.getLast_singleton, false_iff,
        not_and, not_le]
      exact fun hax => lt_of_le_of_ne hax (Ne.symm hx)
  | cons q knots ih =>
    obtain ⟨a, u⟩ := p
    obtain ⟨b, v⟩ := q
    have hab : a < b := ((List.pairwise_cons.1 h).1 _ List.mem_cons_self).1
    have hbl : b ≤ (((b, v) :: knots).getLast (List.cons_ne_nil _ _)).1 :=
      h.tail.head_le (List.getLast_mem _)
    rw [List.getLast_cons (List.cons_ne_nil _ _)]
    rcases lt_trichotomy x a with hxa | rfl | hax
    · simp [interpolate_eq_none_of_lt h hxa, not_le.2 hxa]
    · simpa [interpolate_cons_left] using hab.le.trans hbl
    · rw [interpolate_cons_cons h hax]
      split_ifs with hxb
      · simpa [hax.le] using hxb.le.trans hbl
      · rw [ih h.tail]
        simp [hax.le, not_lt.1 hxb]

/-- **At a knot interpolation returns the knot's value.** -/
theorem interpolate_knot {knots : List (K × K)} (h : Ascending knots) {p : K × K}
    (hp : p ∈ knots) : interpolate knots p.1 = some p.2 := by
  induction knots with
  | nil => cases hp
  | cons q knots ih =>
    obtain ⟨a, u⟩ := q
    rcases List.mem_cons.1 hp with rfl | hp
    · exact interpolate_cons_left _ _ _
    · have hap : a < p.1 := ((List.pairwise_cons.1 h).1 p hp).1
      obtain ⟨⟨b, v⟩, knots, rfl⟩ := List.exists_cons_of_ne_nil (List.ne_nil_of_mem hp)
      rw [interpolate_cons_cons h hap, if_neg (not_lt.2 (h.tail.head_le hp)), ih h.tail hp]

variable [IsStrictOrderedRing K]

/-! ### Monotonicity -/

theorem onSegment_right {a b : K} (h : a < b) (u v : K) : onSegment a u b v b = v := by
  have : b - a ≠ 0 := (sub_pos.2 h).ne'
  rw [onSegment, div_self this]; ring

theorem onSegment_mono {a u b v x y : K} (hab : a < b) (huv : u ≤ v) (hxy : x ≤ y) :
    onSegment a u b v x ≤ onSegment a u b v y := by
  have h₁ := sub_pos.2 hab
  have h₂ := sub_nonneg.2 huv
  unfold onSegment
  gcongr

theorem le_onSegment {a u b v x : K} (hab : a < b) (huv : u ≤ v) (hx : a ≤ x) :
    u ≤ onSegment a u b v x := by
  have := onSegment_mono hab huv hx
  rwa [onSegment_left] at this

theorem onSegment_le {a u b v x : K} (hab : a < b) (huv : u ≤ v) (hx : x ≤ b) :
    onSegment a u b v x ≤ v := by
  have := onSegment_mono hab huv hx
  rwa [onSegment_right hab] at this

theorem le_interpolate {a u : K} {knots : List (K × K)} (h : Ascending ((a, u) :: knots)) {x w : K}
    (hw : interpolate ((a, u) :: knots) x = some w) : u ≤ w := by
  induction knots generalizing a u with
  | nil =>
    rw [interpolate_singleton] at hw
    split_ifs at hw
    simp only [Option.some.injEq] at hw
    exact hw.le
  | cons q knots ih =>
    obtain ⟨b, v⟩ := q
    obtain ⟨hab, huv⟩ := (List.pairwise_cons.1 h).1 _ List.mem_cons_self
    rcases lt_trichotomy x a with hxa | rfl | hax
    · simp [interpolate_eq_none_of_lt h hxa] at hw
    · rw [interpolate_cons_left, Option.some.injEq] at hw
      exact hw.le
    · rw [interpolate_cons_cons h hax] at hw
      split_ifs at hw with hxb
      · simp only [Option.some.injEq] at hw
        exact hw ▸ le_onSegment hab huv hax.le
      · exact huv.trans (ih h.tail hw)

/-- **Interpolation is monotone.** -/
theorem interpolate_mono {knots : List (K × K)} (h : Ascending knots) {x y v w : K} (hxy : x ≤ y)
    (hv : interpolate knots x = some v) (hw : interpolate knots y = some w) : v ≤ w := by
  induction knots with
  | nil => simp [interpolate, onSegments] at hv
  | cons p knots ih =>
    obtain ⟨a, u⟩ := p
    rcases lt_trichotomy x a with hxa | rfl | hax
    · simp [interpolate_eq_none_of_lt h hxa] at hv
    · rw [interpolate_cons_left, Option.some.injEq] at hv
      exact hv ▸ le_interpolate h hw
    · cases knots with
      | nil =>
        rw [interpolate_singleton, if_neg hax.ne'] at hv
        cases hv
      | cons q knots =>
        obtain ⟨b, c⟩ := q
        obtain ⟨hab, huc⟩ := (List.pairwise_cons.1 h).1 _ List.mem_cons_self
        rw [interpolate_cons_cons h hax] at hv
        rw [interpolate_cons_cons h (hax.trans_le hxy)] at hw
        split_ifs at hv hw with hxb hyb hyb
        · simp only [Option.some.injEq] at hv hw
          rw [← hv, ← hw]
          exact onSegment_mono hab huc hxy
        · simp only [Option.some.injEq] at hv
          exact hv ▸ (onSegment_le hab huc hxb.le).trans (le_interpolate h.tail hw)
        · exact absurd (hxy.trans_lt hyb) hxb
        · exact ih h.tail hv hw

/-! ### Both directions -/

/-- Strictly increasing abscissae and values monotone in the given direction. -/
def DirectedKnots (decreasing : Bool) (knots : List (K × K)) : Prop :=
  Ascending (if decreasing then mirror knots else knots)

omit [IsStrictOrderedRing K] in
theorem DirectedKnots.isSome_iff {decreasing : Bool} {p : K × K} {knots : List (K × K)}
    (h : DirectedKnots decreasing (p :: knots)) (x : K) :
    (interpolate (p :: knots) x).isSome ↔
      p.1 ≤ x ∧ x ≤ ((p :: knots).getLast (List.cons_ne_nil _ _)).1 := by
  cases decreasing
  · exact interpolate_isSome_iff h x
  · have hm : Ascending ((p.1, -p.2) :: mirror knots) := h
    have := interpolate_isSome_iff hm x
    have hn := interpolate_neg (p :: knots) x
    simp only [mirror, List.map_cons] at hn this
    rw [hn, Option.isSome_map] at this
    rw [this]
    have hl := List.getLast_map (f := fun q : K × K => (q.1, -q.2)) (l := p :: knots) (by simp)
    simp only [List.map_cons] at hl
    rw [hl]

omit [IsStrictOrderedRing K] in
theorem DirectedKnots.knot {decreasing : Bool} {knots : List (K × K)} (h : DirectedKnots decreasing knots)
    {p : K × K} (hp : p ∈ knots) : interpolate knots p.1 = some p.2 := by
  cases decreasing
  · exact interpolate_knot h hp
  · have := interpolate_knot (p := (p.1, -p.2)) h (List.mem_map.2 ⟨p, hp, rfl⟩)
    simp only [if_true, interpolate_neg, Option.map_eq_some_iff, neg_inj] at this
    obtain ⟨v, hv, rfl⟩ := this
    exact hv

/-- Reading left of another argument gives the smaller value, or the larger one when the values
decrease. -/
theorem DirectedKnots.mono {decreasing : Bool} {knots : List (K × K)} (h : DirectedKnots decreasing knots)
    {x y v w : K} (hxy : x ≤ y) (hv : interpolate knots x = some v)
    (hw : interpolate knots y = some w) : if decreasing then w ≤ v else v ≤ w := by
  cases decreasing
  · exact interpolate_mono h hxy hv hw
  · have := interpolate_mono (v := -v) (w := -w) h hxy (by simp [interpolate_neg, hv])
      (by simp [interpolate_neg, hw])
    simpa using this

end Isotonic

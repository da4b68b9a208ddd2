import Mathlib.Algebra.BigOperators.Group.List.Basic
import Mathlib.Algebra.Order.Field.Basic
import Mathlib.Data.List.Chain
import Mathlib.Tactic.IntervalCases
import Mathlib.Tactic.Linarith
import Mathlib.Tactic.Positivity
import Mathlib.Tactic.Ring

/-!
# Isotonic regression from pooled blocks

The isotonic least-squares regression of a list `x` is the non-decreasing list closest to `x` in
the sum of squared differences.  This file characterises it by a block decomposition: cut `x`
into blocks, replace each block by its mean, and the result is the regression as soon as

* the block means do not decrease from left to right, and
* every block is *heavy in front*: no prefix of it has a mean below the mean of the block
  (`IsBlock`).

`isRegression_expand` is the variational argument.  The deviations of a block from its mean have
non-negative prefix sums and total zero, so by Abel summation (`dot_le_of_heavy`) their product
with any non-decreasing list is at most zero; summed over the blocks, the residual of the fit makes
an obtuse angle with every direction into the monotone cone.

Pooling two adjacent blocks whose means are out of order gives a block again
(`IsBlock.append`), which is the invariant of every pool-adjacent-violators algorithm.
-/

namespace Isotonic

variable {K : Type*} [Field K]

/-- The arithmetic mean of a list; zero for the empty one. -/
def mean (b : List K) : K := b.sum / b.length

/-- The sum of the squared differences of two lists. -/
def sqDist (x y : List K) : K := (List.zipWith (fun a b => (a - b) ^ 2) x y).sum

/-- The inner product of two lists. -/
def dot (d y : List K) : K := (List.zipWith (· * ·) d y).sum

/-- Every element of every block replaced by the mean of its block. -/
def expand (bs : List (List K)) : List K := bs.flatMap fun b => List.replicate b.length (mean b)

@[simp] theorem sqDist_nil (y : List K) : sqDist [] y = 0 := rfl

@[simp] theorem sqDist_cons (a b : K) (x y : List K) :
    sqDist (a :: x) (b :: y) = (a - b) ^ 2 + sqDist x y := by simp [sqDist]

@[simp] theorem dot_nil (y : List K) : dot [] y = 0 := rfl

@[simp] theorem dot_cons (a b : K) (x y : List K) : dot (a :: x) (b :: y) = a * b + dot x y := by
  simp [dot]

@[simp] theorem expand_nil : expand ([] : List (List K)) = [] := rfl

@[simp] theorem expand_cons (b : List K) (bs : List (List K)) :
    expand (b :: bs) = List.replicate b.length (mean b) ++ expand bs := by simp [expand]

theorem dot_append {x x' y y' : List K} (h : x.length = y.length) :
    dot (x ++ x') (y ++ y') = dot x y + dot x' y' := by
  simp [dot, List.zipWith_append h]

theorem sqDist_map_neg (x y : List K) : sqDist (x.map Neg.neg) (y.map Neg.neg) = sqDist x y := by
  induction x generalizing y with
  | nil => simp
  | cons a x ih =>
    cases y with
    | nil => simp [sqDist]
    | cons b y => simp only [List.map_cons, sqDist_cons, ih]; ring

/-- The law of cosines for lists. -/
theorem sqDist_eq_add_add {x f y : List K} (hf : f.length = x.length) (hy : y.length = x.length) :
    sqDist x y = sqDist x f + sqDist f y -
      2 * dot (List.zipWith (· - ·) x f) (List.zipWith (· - ·) y f) := by
  induction x generalizing f y with
  | nil =>
    simp only [List.length_nil, List.length_eq_zero_iff] at hf hy
    simp [hf, hy]
  | cons a x ih =>
    obtain ⟨c, f, rfl⟩ := List.exists_cons_of_length_eq_add_one hf
    obtain ⟨b, y, rfl⟩ := List.exists_cons_of_length_eq_add_one hy
    simp only [List.length_cons, Nat.add_right_cancel_iff] at hf hy
    simp only [sqDist_cons, List.zipWith_cons_cons, dot_cons, ih hf hy]
    ring

theorem length_expand (bs : List (List K)) : (expand bs).length = bs.flatten.length := by
  simp [expand, List.length_flatMap, List.length_flatten]

theorem sum_zipWith_sub_replicate (x : List K) (m : K) :
    (List.zipWith (· - ·) x (List.replicate x.length m)).sum = x.sum - x.length * m := by
  induction x with
  | nil => simp
  | cons a x ih =>
    simp only [List.length_cons, List.replicate_succ, List.zipWith_cons_cons, List.sum_cons, ih]
    push_cast; ring

section CharZero

variable [CharZero K]

theorem length_mul_mean {b : List K} (hb : b ≠ []) : (b.length : K) * mean b = b.sum := by
  have : (b.length : K) ≠ 0 := by simpa using hb
  rw [mean, mul_div_cancel₀ _ this]

/-- Pooling keeps the total. -/
theorem sum_expand {bs : List (List K)} (h : ∀ b ∈ bs, b ≠ []) :
    (expand bs).sum = bs.flatten.sum := by
  induction bs with
  | nil => simp
  | cons b bs ih =>
    rw [expand_cons, List.sum_append, List.sum_replicate, nsmul_eq_mul,
      length_mul_mean (h b List.mem_cons_self), ih fun c hc => h c (List.mem_cons_of_mem _ hc),
      List.flatten_cons, List.sum_append]

end CharZero

variable [LinearOrder K]

theorem sorted_expand {bs : List (List K)} (hs : (bs.map mean).Pairwise (· ≤ ·)) :
    (expand bs).Pairwise (· ≤ ·) := by
  induction bs with
  | nil => simp
  | cons b bs ih =>
    rw [List.map_cons, List.pairwise_cons] at hs
    rw [expand_cons, List.pairwise_append]
    refine ⟨?_, ih hs.2, ?_⟩
    · rw [List.pairwise_replicate]; exact .inr le_rfl
    · intro u hu v hv
      rw [List.eq_of_mem_replicate hu]
      simp only [expand, List.mem_flatMap] at hv
      obtain ⟨c, hc, hv⟩ := hv
      rw [List.eq_of_mem_replicate hv]
      exact hs.1 _ (List.mem_map_of_mem hc)

/-! ### Blocks -/

/-- A non-empty list none of whose prefixes has a mean below the mean of the whole. -/
structure IsBlock (b : List K) : Prop where
  ne_nil : b ≠ []
  heavy : ∀ k ≤ b.length, (k : K) * mean b ≤ (b.take k).sum

theorem isBlock_singleton (v : K) : IsBlock [v] where
  ne_nil := by simp
  heavy k hk := by
    simp only [List.length_singleton] at hk
    interval_cases k <;> simp [mean]

variable [IsStrictOrderedRing K]

/-- The weighted-mean equation of two pooled blocks. -/
theorem mean_append {a b : List K} (ha : a ≠ []) (hb : b ≠ []) :
    ((a.length : K) + b.length) * mean (a ++ b) = a.length * mean a + b.length * mean b := by
  have := length_mul_mean (K := K) (b := a ++ b) (by simp [ha])
  rw [List.length_append, Nat.cast_add, List.sum_append] at this
  rw [this, length_mul_mean ha, length_mul_mean hb]

theorem mean_append_le {a b : List K} (ha : a ≠ []) (hb : b ≠ []) (h : mean b ≤ mean a) :
    mean (a ++ b) ≤ mean a := by
  have e := mean_append ha hb
  have pb : (0 : K) ≤ b.length := Nat.cast_nonneg _
  have pa : (0 : K) < a.length := by
    have := List.length_pos_iff.2 ha; exact_mod_cast this
  have : ((a.length : K) + b.length) * mean (a ++ b) ≤ (a.length + b.length) * mean a := by
    rw [e, add_mul]; gcongr
  exact le_of_mul_le_mul_left this (by linarith)

theorem le_mean_append {a b : List K} (ha : a ≠ []) (hb : b ≠ []) (h : mean b ≤ mean a) :
    mean b ≤ mean (a ++ b) := by
  have e := mean_append ha hb
  have pa : (0 : K) ≤ a.length := Nat.cast_nonneg _
  have pb : (0 : K) < b.length := by
    have := List.length_pos_iff.2 hb; exact_mod_cast this
  have : ((a.length : K) + b.length) * mean b ≤ (a.length + b.length) * mean (a ++ b) := by
    rw [e, add_mul]; gcongr
  exact le_of_mul_le_mul_left this (by linarith)

/-- **Pooling two adjacent violators gives a block.** -/
theorem IsBlock.append {a b : List K} (ha : IsBlock a) (hb : IsBlock b) (h : mean b ≤ mean a) :
    IsBlock (a ++ b) where
  ne_nil := by simp [ha.ne_nil]
  heavy k hk := by
    rw [List.length_append] at hk
    have hma := mean_append_le ha.ne_nil hb.ne_nil h
    have hmb := le_mean_append ha.ne_nil hb.ne_nil h
    rcases le_total k a.length with hka | hka
    · -- the prefix lies inside `a`
      rw [List.take_append_of_le_length hka]
      have hk0 : (0 : K) ≤ k := Nat.cast_nonneg k
      exact (mul_le_mul_of_nonneg_left hma hk0).trans (ha.heavy k hka)
    · -- the prefix is `a` and a prefix of length `j` of `b`
      obtain ⟨j, rfl⟩ := Nat.exists_eq_add_of_le hka
      have hj : j ≤ b.length := by omega
      have e := mean_append ha.ne_nil hb.ne_nil
      have hheavy := hb.heavy j hj
      have hja : (j : K) ≤ b.length := by exact_mod_cast hj
      rw [List.take_length_add_append, List.sum_append, ← length_mul_mean ha.ne_nil]
      push_cast
      have := mul_nonneg (sub_nonneg.2 hja) (sub_nonneg.2 hmb)
      linarith

/-! ### The variational inequality -/

/-- **Abel summation.**  If the running sums of `d`, started at `s`, stay non-negative and end at
zero, then the inner product of `d` with a list that does not decrease from `a` on is at most
`- s * a`. -/
theorem dot_le_of_heavy {d y : List K} {s a : K} (hlen : d.length = y.length)
    (hy : (a :: y).IsChain (· ≤ ·)) (hpre : ∀ k ≤ d.length, 0 ≤ s + (d.take k).sum)
    (htot : s + d.sum = 0) : s * a + dot d y ≤ 0 := by
  induction d generalizing y s a with
  | nil =>
    have hs : s = 0 := by simpa using htot
    simp [hs]
  | cons c d ih =>
    obtain ⟨b, y, rfl⟩ := List.exists_cons_of_length_eq_add_one hlen.symm
    rw [List.isChain_cons_cons] at hy
    have hs : 0 ≤ s := by simpa using hpre 0 (Nat.zero_le _)
    have hih : (s + c) * b + dot d y ≤ 0 := by
      refine ih (by simpa using hlen) hy.2 (fun k hk => ?_) ?_
      · have := hpre (k + 1) (by simpa using hk)
        rwa [List.take_succ_cons, List.sum_cons, ← add_assoc] at this
      · rwa [List.sum_cons, ← add_assoc] at htot
    have := mul_le_mul_of_nonneg_left hy.1 hs
    rw [dot_cons]
    linarith

theorem isChain_sub {y : List K} (m : K) (hy : y.Pairwise (· ≤ ·)) :
    (List.zipWith (· - ·) y (List.replicate y.length m)).IsChain (· ≤ ·) := by
  have : List.zipWith (· - ·) y (List.replicate y.length m) = y.map (· - m) := by
    clear hy
    induction y with
    | nil => rfl
    | cons a y ih => simp [List.replicate_succ, ih]
  rw [this, List.isChain_iff_pairwise, List.pairwise_map]
  exact hy.imp fun h => sub_le_sub_right h m

/-- The residual of a block makes an obtuse angle with every non-decreasing list. -/
theorem IsBlock.dot_le {b y : List K} (hb : IsBlock b) (hlen : y.length = b.length)
    (hy : y.Pairwise (· ≤ ·)) :
    dot (List.zipWith (· - ·) b (List.replicate b.length (mean b)))
      (List.zipWith (· - ·) y (List.replicate b.length (mean b))) ≤ 0 := by
  set m := mean b
  have hchain := isChain_sub m hy
  rw [hlen] at hchain
  have htot : (0 : K) + (List.zipWith (· - ·) b (List.replicate b.length m)).sum = 0 := by
    rw [sum_zipWith_sub_replicate, length_mul_mean hb.ne_nil]; ring
  obtain ⟨y₀, y', rfl⟩ : ∃ y₀ y', y = y₀ :: y' := by
    cases y with
    | nil => exact absurd (List.length_eq_zero_iff.1 hlen.symm) hb.ne_nil
    | cons a t => exact ⟨a, t, rfl⟩
  have hlen' : b.length = y'.length + 1 := by simpa using hlen.symm
  -- start the running sums at zero, one element before the block
  have := dot_le_of_heavy (s := 0) (a := y₀ - m)
    (d := List.zipWith (· - ·) b (List.replicate b.length m))
    (y := List.zipWith (· - ·) (y₀ :: y') (List.replicate b.length m))
    (by simp [hlen']) ?_ ?_ htot
  · simpa using this
  · rw [hlen'] at hchain ⊢
    rw [List.replicate_succ, List.zipWith_cons_cons] at hchain ⊢
    exact List.isChain_cons_cons.2 ⟨le_refl _, hchain⟩
  · intro k hk
    have hk' : k ≤ b.length := by simpa using hk
    have hl : (b.take k).length = k := by simp [hk']
    rw [List.take_zipWith, List.take_replicate, Nat.min_eq_left hk', zero_add]
    have := sum_zipWith_sub_replicate (b.take k) m
    rw [hl] at this
    rw [this]
    linarith [hb.heavy k hk']

/-! ### Regression -/

/-- `f` is the isotonic least-squares regression of `x`: it is non-decreasing, and every other
non-decreasing list is farther from `x` by at least its squared distance from `f`. -/
structure IsRegression (x f : List K) : Prop where
  length_eq : f.length = x.length
  sorted : f.Pairwise (· ≤ ·)
  optimal : ∀ y : List K, y.length = x.length → y.Pairwise (· ≤ ·) →
    sqDist x f + sqDist f y ≤ sqDist x y

theorem sqDist_nonneg (x y : List K) : 0 ≤ sqDist x y := by
  induction x generalizing y with
  | nil => simp
  | cons a x ih =>
    cases y with
    | nil => simp [sqDist]
    | cons b y => rw [sqDist_cons]; have := ih y; positivity

/-- Only equal lists have distance zero. -/
theorem eq_of_sqDist_le_zero {x y : List K} (hlen : x.length = y.length) (h : sqDist x y ≤ 0) :
    x = y := by
  induction x generalizing y with
  | nil => exact (List.length_eq_zero_iff.1 hlen.symm).symm
  | cons a x ih =>
    obtain ⟨b, y, rfl⟩ := List.exists_cons_of_length_eq_add_one hlen.symm
    rw [sqDist_cons] at h
    have h₁ := sqDist_nonneg x y
    have h₂ := sq_nonneg (a - b)
    have hab : (a - b) ^ 2 = 0 := le_antisymm (by linarith) h₂
    have hxy : x = y := ih (by simpa using hlen) (by linarith)
    rw [hxy, sub_eq_zero.1 (pow_eq_zero_iff two_ne_zero |>.1 hab)]

theorem dot_expand_le {bs : List (List K)} (hb : ∀ b ∈ bs, IsBlock b) {y : List K}
    (hlen : y.length = bs.flatten.length) (hy : y.Pairwise (· ≤ ·)) :
    dot (List.zipWith (· - ·) bs.flatten (expand bs)) (List.zipWith (· - ·) y (expand bs)) ≤ 0 := by
  induction bs generalizing y with
  | nil => simp
  | cons b bs ih =>
    rw [List.flatten_cons, List.length_append] at hlen
    -- cut `y` at the end of the first block
    have hy₁ : (y.take b.length).length = b.length := by simp; omega
    have hy₂ : (y.drop b.length).length = bs.flatten.length := by rw [List.length_drop]; omega
    have h₁ := (hb b List.mem_cons_self).dot_le hy₁ (hy.sublist (List.take_sublist _ _))
    have h₂ := ih (fun c hc => hb c (List.mem_cons_of_mem _ hc)) hy₂
      (hy.sublist (List.drop_sublist _ _))
    conv_lhs => rw [← List.take_append_drop b.length y]
    rw [List.flatten_cons, expand_cons, List.zipWith_append (by simp),
      List.zipWith_append (by simpa using hy₁), dot_append (by simp [hy₁])]
    linarith

/-- **A block decomposition with non-decreasing means is the isotonic regression.** -/
theorem isRegression_expand {bs : List (List K)} (hb : ∀ b ∈ bs, IsBlock b)
    (hs : (bs.map mean).Pairwise (· ≤ ·)) : IsRegression bs.flatten (expand bs) where
  length_eq := length_expand bs
  sorted := sorted_expand hs
  optimal y hlen hy := by
    have := dot_expand_le hb hlen hy
    rw [sqDist_eq_add_add (length_expand bs) hlen]
    linarith

end Isotonic

import Mathlib.Algebra.Order.Field.Basic
import Mathlib.Data.List.Sort
import Mathlib.Data.List.Perm.Subperm

/-!
# Step-down multiple testing

A step-down procedure goes down a list of hypotheses and rejects them one by one, until one fails
the test of its position (`walk`).  The tests get easier with the position and easier with smaller
p-values, and there are `m` of them, the size of the family (`Test`).

* `Test.subset`: what any walk rejects stays inside every set that nobody else can join; all
  comparisons of two walks below rest on it.
* `Test.mem_walk_iff_chain`: in the order of the p-values the walk rejects **the largest set that
  can be rejected one by one in some order**, so the choice among equal p-values makes no
  difference (`Test.mem_walk_iff_of_sorted`).
* `Test.walk_eq_iff`: a walk in any other order rejects the same hypotheses exactly when, where it
  stops, none of the hypotheses that are left would pass.
* `Passes` is the test of Holm's procedure, the level `α / (m - k)` at position `k`.
-/

namespace StepDown

variable {ι : Type*}

/-! ### Walks -/

/-- The hypotheses rejected on the way down a list whose first element stands at position `k`. -/
def walk (passes : ℕ → ι → Prop) [∀ k i, Decidable (passes k i)] : ℕ → List ι → List ι
  | _, [] => []
  | k, i :: rest => if passes k i then i :: walk passes (k + 1) rest else []

/-- The hypotheses can be rejected one by one in this order. -/
structure Chain (passes : ℕ → ι → Prop) (l : List ι) : Prop where
  nodup : l.Nodup
  passes : ∀ k (h : k < l.length), passes k l[k]

section Walk

variable {passes : ℕ → ι → Prop} [∀ k i, Decidable (passes k i)] {order : List ι}

theorem walk_isPrefix (k : ℕ) (order : List ι) : walk passes k order <+: order := by
  induction order generalizing k with
  | nil => exact List.prefix_rfl
  | cons i rest ih =>
    rw [walk]
    split_ifs
    · exact List.cons_prefix_cons.2 ⟨rfl, ih (k + 1)⟩
    · exact List.nil_prefix

/-- A walk depends on the tests of its hypotheses only. -/
theorem walk_congr {passes' : ℕ → ι → Prop} [∀ k i, Decidable (passes' k i)] {k : ℕ}
    (h : ∀ k, ∀ i ∈ order, passes k i ↔ passes' k i) :
    walk passes k order = walk passes' k order := by
  induction order generalizing k with
  | nil => rfl
  | cons i rest ih =>
    rw [walk, walk, ih fun k i hi => h k i (List.mem_cons_of_mem _ hi)]
    simp only [h k i List.mem_cons_self]

theorem walk_subset (order : List ι) : walk passes 0 order ⊆ order := (walk_isPrefix 0 order).subset

theorem length_walk_le (order : List ι) : (walk passes 0 order).length ≤ order.length :=
  (walk_isPrefix 0 order).length_le

theorem passes_getElem_walk {k : ℕ} {order : List ι} {j : ℕ}
    (h : j < (walk passes k order).length) : passes (k + j) (walk passes k order)[j] := by
  induction order generalizing k j with
  | nil => simp [walk] at h
  | cons i rest ih =>
    by_cases hi : passes k i
    · simp only [walk, if_pos hi] at h ⊢
      cases j with
      | zero => exact hi
      | succ j =>
        rw [← Nat.succ_add_eq_add_succ]
        exact ih (Nat.lt_of_succ_lt_succ h)
    · simp [walk, hi] at h

/-- What a walk rejects, it can reject one by one. -/
theorem chain_walk (h : order.Nodup) : Chain passes (walk passes 0 order) where
  nodup := h.sublist (walk_isPrefix 0 order).sublist
  passes k hk := by simpa using passes_getElem_walk hk

/-- The hypothesis at which the walk stops fails. -/
theorem not_passes_stop {k : ℕ} {order : List ι}
    (h : (walk passes k order).length < order.length) :
    ¬ passes (k + (walk passes k order).length) order[(walk passes k order).length] := by
  induction order generalizing k with
  | nil => simp at h
  | cons i rest ih =>
    by_cases hi : passes k i
    · simp only [walk, if_pos hi, List.length_cons, List.getElem_cons_succ] at h ⊢
      rw [← Nat.succ_add_eq_add_succ]
      exact ih (Nat.lt_of_succ_lt_succ h)
    · simp [walk, hi]

/-- A walk whose tests end at position `m` does not use them up before the hypotheses: there are
no more of these, or one of the first fails. -/
theorem fits_iff {m : ℕ} (hinside : ∀ k i, passes k i → k < m) (order : List ι) :
    ((walk passes 0 order).length = order.length ∨ (walk passes 0 order).length < m) ↔
      order.length ≤ m ∨ ∃ k, ∃ hk : k < order.length, k < m ∧ ¬ passes k order[k] := by
  have hle : (walk passes 0 order).length ≤ order.length := length_walk_le order
  have hbound : (walk passes 0 order).length ≤ m := by
    by_contra hlt
    rw [not_le] at hlt
    have := hinside _ _ (passes_getElem_walk hlt)
    omega
  constructor
  · rintro (hall | hlt)
    · exact .inl (hall ▸ hbound)
    · rcases hle.lt_or_eq with hstop | hall
      · exact .inr ⟨_, hstop, hlt, by simpa using not_passes_stop hstop⟩
      · exact .inl (hall ▸ hbound)
  · rintro (hfits | ⟨k, hk, hkm, hnot⟩)
    · omega
    · right
      by_contra hge
      have hlt : k < (walk passes 0 order).length := by omega
      have hpass := passes_getElem_walk hlt
      rw [(walk_isPrefix 0 order).getElem hlt, zero_add] at hpass
      exact hnot hpass

/-- What a walk rejects are the hypotheses before its stop. -/
theorem mem_walk_iff_lt (hnodup : order.Nodup) {j : ℕ} {i : ι} (hi : order[j]? = some i) :
    i ∈ walk passes 0 order ↔ j < (walk passes 0 order).length := by
  obtain ⟨hj, rfl⟩ := List.getElem?_eq_some_iff.1 hi
  constructor
  · intro hmem
    obtain ⟨l, hl, heq⟩ := List.getElem_of_mem hmem
    rw [(walk_isPrefix 0 order).getElem hl, hnodup.getElem_inj_iff] at heq
    exact heq ▸ hl
  · intro hlt
    rw [← (walk_isPrefix 0 order).getElem hlt]
    exact List.getElem_mem hlt

/-- **The stop of a walk.**  Nothing that a walk leaves out would pass where the walk stops exactly
when there is a position, before the end of the tests or behind all hypotheses, up to which all pass
their own tests and from which on none passes the test of that position. -/
theorem exists_stop_iff {m : ℕ} (hnodup : order.Nodup)
    (hfits : (walk passes 0 order).length = order.length ∨ (walk passes 0 order).length < m) :
    (∃ stop, (stop < m ∨ stop = order.length) ∧ ∀ j i, order[j]? = some i →
        if j < stop then passes j i else ¬ passes stop i) ↔
      ∀ i ∈ order, i ∉ walk passes 0 order → ¬ passes (walk passes 0 order).length i := by
  constructor
  · rintro ⟨stop, -, hall⟩ i hi hnot
    obtain ⟨j, hj, rfl⟩ := List.getElem_of_mem hi
    have hget : order[j]? = some order[j] := List.getElem?_eq_getElem hj
    rw [mem_walk_iff_lt hnodup hget, not_lt] at hnot
    rcases lt_trichotomy (walk passes 0 order).length stop with hlt | heq | hgt
    · -- the walk cannot stop at a hypothesis that passes
      have hstop := hnot.trans_lt hj
      have hpass := hall _ _ (List.getElem?_eq_getElem hstop)
      rw [if_pos hlt] at hpass
      exact absurd hpass (by simpa using not_passes_stop hstop)
    · have := hall _ _ hget
      rwa [if_neg (by omega), ← heq] at this
    · -- nor go on behind one that does not
      have hpass := passes_getElem_walk hgt
      rw [(walk_isPrefix 0 order).getElem hgt, zero_add] at hpass
      have := hall stop _ (List.getElem?_eq_getElem (by omega))
      rw [if_neg (lt_irrefl _)] at this
      exact absurd hpass this
  · intro hfail
    refine ⟨_, hfits.symm, fun j i hi => ?_⟩
    split_ifs with hj
    · have hpass := passes_getElem_walk hj
      rw [(walk_isPrefix 0 order).getElem hj, zero_add] at hpass
      obtain ⟨_, rfl⟩ := List.getElem?_eq_some_iff.1 hi
      exact hpass
    · exact hfail i (List.mem_of_getElem? hi) (mt (mem_walk_iff_lt hnodup hi).1 hj)

end Walk

/-! ### Tests that get easier -/

variable {K : Type*} [LinearOrder K]

/-- The tests of a family of `m` hypotheses: there is none behind position `m`, a smaller p-value
passes what a larger one passes, and a later position is easier. -/
structure Test (m : ℕ) (p : ι → K) (passes : ℕ → ι → Prop) : Prop where
  inside : ∀ {k i}, passes k i → k < m
  smaller : ∀ {k i j}, passes k i → p j ≤ p i → passes k j
  later : ∀ {k l i}, passes k i → k ≤ l → l < m → passes l i

section Test

variable {m : ℕ} {p : ι → K} {passes : ℕ → ι → Prop} {l l' : List ι}

/-- A chain stays inside a set whose outsiders all fail at the position the set is long. -/
theorem Test.subset (ht : Test m p passes) (hl : Chain passes l) (hm : l'.length < m)
    (hfail : ∀ i ∈ l, i ∉ l' → ¬ passes l'.length i) : l ⊆ l' := by
  have key : ∀ n ≤ l.length, l.take n ⊆ l' := by
    intro n
    induction n with
    | zero => simp
    | succ n ih =>
      intro hn
      have hsub := ih (Nat.le_of_succ_le hn)
      have hle : n ≤ l'.length := by
        have := (List.subperm_of_subset (hl.nodup.sublist (List.take_sublist n l)) hsub).length_le
        rwa [List.length_take_of_le (Nat.le_of_succ_le hn)] at this
      -- the next hypothesis passes earlier than the outsiders are tested
      have hnext : l[n] ∈ l' := by
        by_contra hnot
        exact hfail _ (List.getElem_mem _) hnot (ht.later (hl.passes n hn) hle hm)
      rw [List.take_succ_eq_append_getElem hn]
      exact List.append_subset.2 ⟨hsub, List.cons_subset.2 ⟨hnext, List.nil_subset _⟩⟩
  simpa using key l.length le_rfl

variable [∀ k i, Decidable (passes k i)] {σ τ : List ι} {i : ι}

theorem Test.length_walk_le (ht : Test m p passes) (order : List ι) :
    (walk passes 0 order).length ≤ m := by
  by_contra hlt
  rw [not_le] at hlt
  have := ht.inside (passes_getElem_walk hlt)
  omega

/-- In the order of the p-values, nothing behind the stop would pass there. -/
theorem Test.not_passes_of_sorted (ht : Test m p passes) (hτ : τ.Pairwise fun a b => p a ≤ p b)
    (hi : i ∈ τ) (hnot : i ∉ walk passes 0 τ) : ¬ passes (walk passes 0 τ).length i := by
  intro hpass
  obtain ⟨rest, hrest⟩ := @walk_isPrefix _ passes _ 0 τ
  have hmem : i ∈ rest := by
    rw [← hrest, List.mem_append] at hi
    exact hi.resolve_left hnot
  obtain ⟨j, rest, rfl⟩ := List.exists_cons_of_ne_nil (List.ne_nil_of_mem hmem)
  have hlt : (walk passes 0 τ).length < τ.length := by
    conv_rhs => rw [← hrest]
    simp
  have hstop := not_passes_stop hlt
  have hj : τ[(walk passes 0 τ).length] = j := by
    rw [List.getElem_of_eq hrest.symm, List.getElem_append_right le_rfl]
    simp
  rw [hj, zero_add] at hstop
  -- the first of the rest has the smallest p-value of the rest
  have hle : p j ≤ p i := by
    rw [← hrest, List.pairwise_append, List.pairwise_cons] at hτ
    rcases List.mem_cons.1 hmem with rfl | hmem
    · exact le_rfl
    · exact hτ.2.1.1 i hmem
  exact hstop (ht.smaller hpass hle)

/-- A walk over at most `m` hypotheses that leaves one out stops before position `m`. -/
theorem length_walk_lt_of_notMem (hm : τ.length ≤ m) (hi : i ∈ τ)
    (hnot : i ∉ walk passes 0 τ) : (walk passes 0 τ).length < m := by
  refine lt_of_lt_of_le (lt_of_le_of_ne (walk_isPrefix 0 τ).length_le fun heq => ?_) hm
  rw [(walk_isPrefix 0 τ).eq_of_length heq] at hnot
  exact hnot hi

/-- What can be rejected one by one, in whatever order, is rejected in the order of the
p-values. -/
theorem Test.chain_subset_walk (ht : Test m p passes) (hτ : τ.Pairwise fun a b => p a ≤ p b)
    (hm : τ.length ≤ m) (hl : Chain passes l) (hsub : l ⊆ τ) : l ⊆ walk passes 0 τ := by
  by_cases hall : l ⊆ walk passes 0 τ
  · exact hall
  · obtain ⟨i, hi, hnot⟩ : ∃ i ∈ l, i ∉ walk passes 0 τ := by
      simpa [List.subset_def] using hall
    exact ht.subset hl (length_walk_lt_of_notMem hm (hsub hi) hnot) fun j hj hj' =>
      ht.not_passes_of_sorted hτ (hsub hj) hj'

/-- **The walk in the order of the p-values rejects the largest set that can be rejected one by
one.** -/
theorem Test.mem_walk_iff_chain (ht : Test m p passes) (hτ : τ.Pairwise fun a b => p a ≤ p b)
    (hnodup : τ.Nodup) (hm : τ.length ≤ m) :
    i ∈ walk passes 0 τ ↔ ∃ l, l ⊆ τ ∧ Chain passes l ∧ i ∈ l := by
  constructor
  · exact fun hi => ⟨_, walk_subset τ, chain_walk hnodup, hi⟩
  · rintro ⟨l, hsub, hl, hi⟩
    exact ht.chain_subset_walk hτ hm hl hsub hi

/-- Two orders of the p-values differ among equal ones only, and that makes no difference. -/
theorem Test.mem_walk_iff_of_sorted (ht : Test m p passes) (hσ : σ.Pairwise fun a b => p a ≤ p b)
    (hτ : τ.Pairwise fun a b => p a ≤ p b) (hperm : σ.Perm τ) (hnodup : σ.Nodup)
    (hm : σ.length ≤ m) : i ∈ walk passes 0 σ ↔ i ∈ walk passes 0 τ := by
  rw [ht.mem_walk_iff_chain hσ hnodup hm, ht.mem_walk_iff_chain hτ (hperm.nodup_iff.1 hnodup)
    (hperm.length_eq ▸ hm)]
  exact exists_congr fun l => and_congr_left' ⟨fun h => List.Subset.trans h hperm.subset,
    fun h => List.Subset.trans h hperm.symm.subset⟩

/-- **When a walk in another order rejects the same hypotheses.**  A walk that does not use up the
family rejects what the walk in the order of the p-values rejects exactly when, at the position
where it stops, every hypothesis that is left fails. -/
theorem Test.walk_eq_iff (ht : Test m p passes) (hσ : σ.Nodup) (hperm : σ.Perm τ)
    (hτ : τ.Pairwise fun a b => p a ≤ p b)
    (hstop : (walk passes 0 σ).length = σ.length ∨ (walk passes 0 σ).length < m) :
    (∀ i, i ∈ walk passes 0 σ ↔ i ∈ walk passes 0 τ) ↔
      ∀ i ∈ σ, i ∉ walk passes 0 σ → ¬ passes (walk passes 0 σ).length i := by
  have hτnodup := hperm.nodup_iff.1 hσ
  constructor
  · intro heq i hi hnot hpass
    have hlength : (walk passes 0 τ).length = (walk passes 0 σ).length :=
      ((List.perm_ext_iff_of_nodup (chain_walk hτnodup).nodup (chain_walk hσ).nodup).2
        fun j => (heq j).symm).length_eq
    rw [← hlength] at hpass
    exact ht.not_passes_of_sorted hτ (hperm.subset hi) (fun hmem => hnot ((heq i).2 hmem)) hpass
  · intro hfail i
    have hbound : (walk passes 0 τ).length ≤ m := ht.length_walk_le τ
    -- nobody who is left can come in at a later position either
    have hinto : walk passes 0 τ ⊆ walk passes 0 σ := by
      rcases hstop with hall | hlt
      · rw [(walk_isPrefix 0 σ).eq_of_length hall]
        exact List.Subset.trans (walk_subset τ) hperm.symm.subset
      · exact ht.subset (chain_walk hτnodup) hlt fun j hj hnot =>
          hfail j (hperm.symm.subset (walk_subset τ hj)) hnot
    have hfrom : walk passes 0 σ ⊆ walk passes 0 τ := by
      by_cases hfull : (walk passes 0 τ).length < m
      · exact ht.subset (chain_walk hσ) hfull fun j hj hnot =>
          ht.not_passes_of_sorted hτ (hperm.subset (walk_subset σ hj)) hnot
      · -- a full walk is as long as the other one can be, and inside it
        have hle : (walk passes 0 σ).length ≤ (walk passes 0 τ).length :=
          (ht.length_walk_le σ).trans (not_lt.1 hfull)
        have hsub := (List.subperm_of_subset (chain_walk hτnodup).nodup hinto)
        exact (hsub.perm_of_length_le hle).symm.subset
    exact ⟨fun hi => hfrom hi, fun hi => hinto hi⟩

end Test

/-! ### Laws -/

section Laws

variable {κ : Type*} {passes passes' : ℕ → ι → Prop} {l : List ι}

/-- A chain stays one when more passes at its positions. -/
theorem Chain.mono (hl : Chain passes l)
    (h : ∀ k < l.length, ∀ i, passes k i → passes' k i) : Chain passes' l where
  nodup := hl.nodup
  passes k hk := h k hk _ (hl.passes k hk)

/-- A chain of renamed hypotheses. -/
theorem Chain.map {tests : ℕ → κ → Prop} {f : ι → κ} (hf : f.Injective)
    (h : ∀ k i, passes k i → tests k (f i)) (hl : Chain passes l) : Chain tests (l.map f) where
  nodup := hl.nodup.map hf
  passes k hk := by
    rw [List.getElem_map]
    exact h k _ (hl.passes k (by simpa using hk))

end Laws

/-! ### Holm's levels -/

section Holm

variable {F : Type*} [Field F] [LinearOrder F] [IsStrictOrderedRing F]

/-- The test of Holm's procedure: at position `k`, counted from zero, in a family of `m`, the
p-value is compared with `α / (m - k)`. -/
def Passes (α : F) (m : ℕ) (p : ι → F) (k : ℕ) (i : ι) : Prop := k < m ∧ p i ≤ α / ((m : F) - k)

instance (α : F) (m : ℕ) (p : ι → F) (k : ℕ) (i : ι) : Decidable (Passes α m p k i) :=
  inferInstanceAs (Decidable (_ ∧ _))

variable {α : F} {m n : ℕ} {p q : ι → F}

/-- The levels do not decrease along the walk. -/
theorem level_mono (hα : 0 ≤ α) {k l : ℕ} (hkl : k ≤ l) (hl : l < m) :
    α / ((m : F) - k) ≤ α / ((m : F) - l) := by
  have hlm : (0 : F) < m - l := sub_pos.2 (Nat.cast_lt.2 hl)
  have hle : (m : F) - l ≤ m - k := sub_le_sub_left (Nat.cast_le.2 hkl) _
  exact div_le_div_of_nonneg_left hα hlm hle

theorem test_passes (hα : 0 ≤ α) : Test m p (Passes α m p) where
  inside h := h.1
  smaller h hle := ⟨h.1, hle.trans h.2⟩
  later h hkl hl := ⟨hl, h.2.trans (level_mono hα hkl hl)⟩

/-- In a larger family the level of a position is lower. -/
theorem Passes.of_family_le (hα : 0 ≤ α) (hmn : m ≤ n) {k : ℕ} {i : ι}
    (h : Passes α n p k i) (hk : k < m) : Passes α m p k i := by
  refine ⟨hk, h.2.trans ?_⟩
  have hkm : (0 : F) < m - k := sub_pos.2 (Nat.cast_lt.2 hk)
  exact div_le_div_of_nonneg_left hα hkm (sub_le_sub_right (Nat.cast_le.2 hmn) _)

end Holm

/-! ### Marks -/

section Marks

theorem getD_set_true (rejected : List Bool) (index i : ℕ) :
    (rejected.set index true).getD i false = true ↔
      rejected.getD i false = true ∨ i = index ∧ i < rejected.length := by
  rw [List.getD_eq_getElem?_getD, List.getD_eq_getElem?_getD, List.getElem?_set]
  by_cases h : index = i
  · subst h
    by_cases hlt : index < rejected.length <;> simp [hlt]
  · simp [h, Ne.symm h]

/-- Before the walk nothing is marked. -/
theorem getD_replicate_false (n i : ℕ) : (List.replicate n false).getD i false = false := by
  rw [List.getD_eq_getElem?_getD, List.getElem?_replicate]
  split_ifs <;> rfl

/-- The marks after a walk: those that were there and the hypotheses it rejects. -/
theorem getD_foldl_set {rejected : List Bool} {l : List ℕ} {i : ℕ} :
    (l.foldl (fun marks index => marks.set index true) rejected).getD i false = true ↔
      rejected.getD i false = true ∨ i ∈ l ∧ i < rejected.length := by
  induction l generalizing rejected with
  | nil => simp
  | cons index l ih =>
    rw [List.foldl_cons, ih, getD_set_true, List.length_set, List.mem_cons]
    tauto

end Marks

end StepDown

import K8Labs.Python.Sorted
import Mathlib.Algebra.Order.Group.Defs
import Mathlib.Data.List.GetD
import Mathlib.Order.Basic

/-!
# Order statistics

The element at an index of a sorted list.

* `forall₂_insertionSort` : order statistics grow with the data.
* `insertionSort_map_neg` : those of mirrored data are the mirrored ones, from the other end.
* `getElem_eq_iff` : the element at an index, by counting the data below it.
* `AtRank` : a value at a rank, without sorting.
-/

namespace Py

section Max

variable {α : Type*} [LinearOrder α] {a x : α} {xs : List α}

theorem le_foldl_max_iff : x ≤ xs.foldl max a ↔ x ≤ a ∨ ∃ y ∈ xs, x ≤ y := by
  induction xs generalizing a with
  | nil => simp
  | cons y xs ih => rw [List.foldl_cons, ih, le_max_iff, List.exists_mem_cons_iff, or_assoc]

theorem foldl_max_le_iff : xs.foldl max a ≤ x ↔ a ≤ x ∧ ∀ y ∈ xs, y ≤ x := by
  induction xs generalizing a with
  | nil => simp
  | cons y xs ih => rw [List.foldl_cons, ih, max_le_iff, List.forall_mem_cons, and_assoc]

end Max

section Mono

variable {α : Type*} [LinearOrder α] {a b : α} {l m : List α}

/-- Inserting a greater element into a list that is greater element by element. -/
theorem forall₂_orderedInsert (hl : l.Pairwise (· ≤ ·)) (hm : m.Pairwise (· ≤ ·))
    (h : List.Forall₂ (· ≤ ·) l m) (hab : a ≤ b) :
    List.Forall₂ (· ≤ ·) (l.orderedInsert (· ≤ ·) a) (m.orderedInsert (· ≤ ·) b) := by
  induction h generalizing a b with
  | nil => exact .cons hab .nil
  | @cons c d l m hcd h ih =>
    rw [List.pairwise_cons] at hl hm
    rw [List.orderedInsert_cons, List.orderedInsert_cons]
    split_ifs with hac hbd hbd
    · exact .cons hab (.cons hcd h)
    · -- `a` goes in front of `c`, and `c` takes the place that `b` has behind `d`
      have hrest := ih hl.2 hm.2 (hcd.trans (not_le.1 hbd).le)
      rw [orderedInsert_front hl.1] at hrest
      exact .cons (hac.trans hcd) hrest
    · have hrest := ih hl.2 hm.2 (hab.trans hbd)
      rw [orderedInsert_front hm.1] at hrest
      exact .cons ((not_le.1 hac).le.trans hab) hrest
    · exact .cons hcd (ih hl.2 hm.2 hab)

/-- The element at an index of a list that is greater element by element. -/
theorem forall₂_getD {d : α} (h : List.Forall₂ (· ≤ ·) l m) (i : ℕ) :
    l.getD i d ≤ m.getD i d := by
  induction h generalizing i with
  | nil => exact le_rfl
  | cons hab _ ih =>
    cases i with
    | zero => exact hab
    | succ i => exact ih i

/-- **Order statistics grow with the data.** -/
theorem forall₂_insertionSort (h : List.Forall₂ (· ≤ ·) l m) :
    List.Forall₂ (· ≤ ·) (l.insertionSort (· ≤ ·)) (m.insertionSort (· ≤ ·)) := by
  induction h with
  | nil => exact .nil
  | cons hab _ ih =>
    rw [List.insertionSort_cons, List.insertionSort_cons]
    exact forall₂_orderedInsert (List.pairwise_insertionSort _ _) (List.pairwise_insertionSort _ _)
      ih hab

end Mono

section Mirror

variable {α : Type*} [AddCommGroup α] [LinearOrder α] [IsOrderedAddMonoid α]

/-- **The order statistics of mirrored data.** -/
theorem insertionSort_map_neg (l : List α) :
    (l.map Neg.neg).insertionSort (· ≤ ·) =
      ((l.insertionSort (· ≤ ·)).map Neg.neg).reverse := by
  refine List.Perm.eq_of_pairwise (fun a b _ _ => le_antisymm) (List.pairwise_insertionSort _ _) ?_ ?_
  · rw [List.pairwise_reverse, List.pairwise_map]
    exact (List.pairwise_insertionSort (· ≤ ·) l).imp neg_le_neg
  · exact (List.perm_insertionSort _ _).trans
      (((List.perm_insertionSort _ l).map _).symm.trans (List.reverse_perm _).symm)

end Mirror

section Count

variable {α : Type*} [LinearOrder α] {s : List α} {i : ℕ} {v : α}

/-- The elements of a sorted list that a property of small elements holds of come first. -/
theorem lt_countP_iff {p : α → Bool} (hp : ∀ a b, a ≤ b → p b = true → p a = true)
    (hs : s.Pairwise (· ≤ ·)) : i < s.countP p ↔ ∃ h : i < s.length, p s[i] = true := by
  induction s generalizing i with
  | nil => simp
  | cons a s ih =>
    rw [List.pairwise_cons] at hs
    by_cases ha : p a = true
    · rw [List.countP_cons_of_pos ha]
      cases i with
      | zero => simp [ha]
      | succ i => simpa using ih hs.2
    · have hnone : (a :: s).countP p = 0 := by
        rw [List.countP_eq_zero]
        rintro b hb hpb
        rcases List.mem_cons.1 hb with rfl | hb
        · exact ha hpb
        · exact ha (hp a b (hs.1 b hb) hpb)
      rw [hnone]
      refine iff_of_false (Nat.not_lt_zero i) ?_
      rintro ⟨h, hpi⟩
      exact List.countP_eq_zero.1 hnone _ (List.getElem_mem h) hpi

theorem getElem_le_iff (hs : s.Pairwise (· ≤ ·)) (h : i < s.length) :
    s[i] ≤ v ↔ i < s.countP fun a => a ≤ v := by
  have hdown : ∀ a b, a ≤ b → decide (b ≤ v) = true → decide (a ≤ v) = true := fun a b hab hb =>
    decide_eq_true (hab.trans (of_decide_eq_true hb))
  rw [lt_countP_iff hdown hs]
  exact ⟨fun hle => ⟨h, decide_eq_true hle⟩, fun ⟨_, hle⟩ => of_decide_eq_true hle⟩

theorem getElem_lt_iff (hs : s.Pairwise (· ≤ ·)) (h : i < s.length) :
    s[i] < v ↔ i < s.countP fun a => a < v := by
  have hdown : ∀ a b, a ≤ b → decide (b < v) = true → decide (a < v) = true := fun a b hab hb =>
    decide_eq_true (hab.trans_lt (of_decide_eq_true hb))
  rw [lt_countP_iff hdown hs]
  exact ⟨fun hlt => ⟨h, decide_eq_true hlt⟩, fun ⟨_, hlt⟩ => of_decide_eq_true hlt⟩

/-- **The element at an index**: at most so many of the data are below it, and more are not
above. -/
theorem getElem_eq_iff (hs : s.Pairwise (· ≤ ·)) (h : i < s.length) :
    s[i] = v ↔ (s.countP fun a => a < v) ≤ i ∧ i < s.countP fun a => a ≤ v := by
  rw [← getElem_le_iff hs h, ← not_lt, ← getElem_lt_iff hs h, not_lt, and_comm]
  exact le_antisymm_iff

/-- **Two neighbouring order statistics are equal** when the data have so many equal elements
there. -/
theorem getD_insertionSort_eq_iff {l : List α} {d : α} (h : i + 1 < l.length) :
    (l.insertionSort (· ≤ ·)).getD i d = (l.insertionSort (· ≤ ·)).getD (i + 1) d ↔
      ∃ v, (l.countP fun a => a < v) ≤ i ∧ i + 1 < l.countP fun a => a ≤ v := by
  have hs := List.pairwise_insertionSort (· ≤ ·) l
  have hperm := List.perm_insertionSort (· ≤ ·) l
  rw [← List.length_insertionSort (· ≤ ·) l] at h
  rw [List.getD_eq_getElem _ _ h, List.getD_eq_getElem _ _ (Nat.lt_of_succ_lt h)]
  constructor
  · intro heq
    refine ⟨(l.insertionSort (· ≤ ·))[i + 1], ?_, ?_⟩
    · rw [← hperm.countP_eq]
      exact ((getElem_eq_iff hs (Nat.lt_of_succ_lt h)).1 heq).1
    · rw [← hperm.countP_eq]
      exact ((getElem_eq_iff hs h).1 rfl).2
  · rintro ⟨v, hbelow, habove⟩
    rw [← hperm.countP_eq] at hbelow habove
    rw [(getElem_eq_iff hs _).2 ⟨hbelow, by omega⟩, (getElem_eq_iff hs _).2 ⟨by omega, habove⟩]

end Count

section Rank

variable {α : Type*} [LinearOrder α] {l : List α} {i j : ℕ} {u v : α}

/-- A value at a rank of the data, counted from zero: at most so many of them are below it, and
more are not above. -/
def AtRank (l : List α) (i : ℕ) (v : α) : Prop :=
  (l.countP fun a => a < v) ≤ i ∧ i < l.countP fun a => a ≤ v

theorem atRank_iff_getD (d : α) (h : i < l.length) :
    AtRank l i v ↔ (l.insertionSort (· ≤ ·)).getD i d = v := by
  have hperm := List.perm_insertionSort (· ≤ ·) l
  rw [← List.length_insertionSort (· ≤ ·) l] at h
  rw [List.getD_eq_getElem _ _ h, getElem_eq_iff (List.pairwise_insertionSort (· ≤ ·) l) h,
    hperm.countP_eq, hperm.countP_eq, AtRank]

/-- Values grow with their ranks. -/
theorem AtRank.le (hu : AtRank l i u) (hv : AtRank l j v) (hij : i ≤ j) : u ≤ v := by
  by_contra hlt
  have hbelow : (l.countP fun a => a ≤ v) ≤ l.countP fun a => a < u :=
    List.countP_mono_left fun a _ ha =>
      decide_eq_true ((of_decide_eq_true ha).trans_lt (not_le.1 hlt))
  have := hu.1
  have := hv.2
  omega

/-- The value at the last rank is the greatest. -/
theorem atRank_last_iff (h : l ≠ []) :
    AtRank l (l.length - 1) v ↔ v ∈ l ∧ ∀ a ∈ l, a ≤ v := by
  have hpos := List.length_pos_iff.2 h
  have hall : (l.length - 1 < l.countP fun a => a ≤ v) ↔ ∀ a ∈ l, a ≤ v := by
    have hle := List.countP_le_length (p := fun a => decide (a ≤ v)) (l := l)
    have hmem : (∀ a ∈ l, a ≤ v) ↔ (l.countP fun a => a ≤ v) = l.length := by
      simp only [List.countP_eq_length, decide_eq_true_eq]
    rw [hmem]
    omega
  have hsome : ((l.countP fun a => a < v) ≤ l.length - 1) ↔ ∃ a ∈ l, v ≤ a := by
    have hle := List.countP_le_length (p := fun a => decide (a < v)) (l := l)
    have hmem : (∀ a ∈ l, a < v) ↔ (l.countP fun a => a < v) = l.length := by
      simp only [List.countP_eq_length, decide_eq_true_eq]
    rw [← not_iff_not]
    push Not
    rw [hmem]
    omega
  rw [AtRank, hall, hsome]
  constructor
  · rintro ⟨⟨a, ha, hva⟩, hle⟩
    exact ⟨le_antisymm (hle a ha) hva ▸ ha, hle⟩
  · exact fun ⟨hmem, hle⟩ => ⟨⟨v, hmem, le_rfl⟩, hle⟩

end Rank

end Py

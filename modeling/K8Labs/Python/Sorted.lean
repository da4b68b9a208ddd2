import Mathlib.Data.List.DropRight
import Mathlib.Data.List.Sort

/-!
# Stable sorting

`sorted` with a key is an insertion sort by the order of the keys.  It is stable: filtering before or
after it makes no difference.  Which elements come last (`mem_rtake_insertionSort`) depends only on how many
have a larger key.
-/

namespace Py

section Sorted

variable {α : Type*} {r : α → α → Prop} [DecidableRel r] {p : α → Bool} {a : α}

theorem orderedInsert_front {l : List α} (h : ∀ b ∈ l, r a b) : l.orderedInsert r a = a :: l := by
  cases l with
  | nil => rfl
  | cons b l => rw [List.orderedInsert_cons, if_pos (h b List.mem_cons_self)]

/-- Inserting an element that is kept commutes with the filter. -/
theorem filter_orderedInsert [IsTrans α r] (hp : p a = true) {l : List α} (hsorted : l.Pairwise r) :
    (l.orderedInsert r a).filter p = (l.filter p).orderedInsert r a := by
  induction l with
  | nil => simp [hp]
  | cons b l ih =>
    rw [List.pairwise_cons] at hsorted
    by_cases hab : r a b
    · rw [List.orderedInsert_cons, if_pos hab, List.filter_cons_of_pos hp, orderedInsert_front]
      intro c hc
      rcases List.mem_cons.1 (List.mem_filter.1 hc).1 with rfl | hc
      · exact hab
      · exact IsTrans.trans a b c hab (hsorted.1 c hc)
    · rw [List.orderedInsert_cons, if_neg hab, List.filter_cons, List.filter_cons, ih hsorted.2]
      by_cases hb : p b = true
      · rw [if_pos hb, if_pos hb, List.orderedInsert_cons, if_neg hab]
      · rw [if_neg hb, if_neg hb]

theorem filter_orderedInsert_of_not (hp : p a = false) (l : List α) :
    (l.orderedInsert r a).filter p = l.filter p := by
  induction l with
  | nil => simp [hp]
  | cons b l ih =>
    rw [List.orderedInsert_cons]
    split_ifs
    · rw [List.filter_cons_of_neg (by simp [hp])]
    · rw [List.filter_cons, List.filter_cons, ih]

/-- Filtering before or after sorting makes no difference. -/
theorem insertionSort_filter [Std.Total r] [IsTrans α r] (p : α → Bool) (l : List α) :
    (l.filter p).insertionSort r = (l.insertionSort r).filter p := by
  induction l with
  | nil => rfl
  | cons a l ih =>
    rw [List.insertionSort_cons]
    by_cases hp : p a = true
    · rw [List.filter_cons_of_pos hp, List.insertionSort_cons, ih,
        filter_orderedInsert hp (List.pairwise_insertionSort r l)]
    · rw [Bool.not_eq_true] at hp
      rw [List.filter_cons_of_neg (by simp [hp]), filter_orderedInsert_of_not hp, ih]

end Sorted

/-! ### The last elements -/

section Last

variable {α β : Type*} [LinearOrder β] {key : α → β} {l : List α} {a : α} {k : ℕ}

/-- Of a list with increasing keys, the last elements are those with few behind them. -/
theorem mem_rtake_iff (hsorted : l.Pairwise fun a b => key a < key b) (ha : a ∈ l) :
    a ∈ l.rtake k ↔ (l.countP fun b => key a < key b) < k := by
  induction l with
  | nil => cases ha
  | cons b l ih =>
    rw [List.pairwise_cons] at hsorted
    have hrtake : (b :: l).rtake k = if l.length < k then b :: l else l.rtake k := by
      unfold List.rtake
      rw [List.length_cons]
      split_ifs with hk
      · rw [Nat.sub_eq_zero_of_le hk, List.drop_zero]
      · rw [Nat.sub_add_comm (not_lt.1 hk), List.drop_succ_cons]
    rw [hrtake]
    rcases List.mem_cons.1 ha with rfl | ha
    · -- all the others are behind the first one
      have hcount : (a :: l).countP (fun b => key a < key b) = l.length := by
        rw [List.countP_cons_of_neg (by simp), List.countP_eq_length]
        exact fun c hc => decide_eq_true (hsorted.1 c hc)
      rw [hcount]
      split_ifs with hk
      · exact iff_of_true List.mem_cons_self hk
      · exact iff_of_false (fun h => (hsorted.1 a (List.mem_of_mem_drop h)).false) hk
    · rw [List.countP_cons_of_neg (by simpa using (hsorted.1 a ha).le)]
      split_ifs with hk
      · exact iff_of_true (List.mem_cons_of_mem b ha) (List.countP_le_length.trans_lt hk)
      · exact ih hsorted.2 ha

theorem mem_rtake_insertionSort (hnodup : l.Nodup) (hkey : Set.InjOn key {a | a ∈ l}) (ha : a ∈ l) :
    a ∈ (l.insertionSort fun a b => key a ≤ key b).rtake k ↔
      (l.countP fun b => key a < key b) < k := by
  have hperm := List.perm_insertionSort (fun a b => key a ≤ key b) l
  have hsorted : (l.insertionSort fun a b => key a ≤ key b).Pairwise fun a b => key a < key b := by
    have hle := List.pairwise_insertionSort (fun a b => key a ≤ key b) l
    refine (hle.and (hperm.nodup_iff.2 hnodup)).imp_of_mem fun ha hb h => lt_of_le_of_ne h.1 fun heq => ?_
    exact h.2 (hkey (hperm.mem_iff.1 ha) (hperm.mem_iff.1 hb) heq)
  rw [mem_rtake_iff hsorted (hperm.mem_iff.2 ha), hperm.countP_eq]

end Last

end Py

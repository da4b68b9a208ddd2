import Mathlib.Data.List.Infix
import Mathlib.Data.Nat.Notation
import Mathlib.Tactic.SplitIfs

/-!
# Replacing a text by another

`text.replace(old, new)`, for a text that is not empty, as `sed` does it too: from the left, every
occurrence that does not overlap the one before.

* `replace_append_cons` : a character that is not in the old text separates what is replaced.
* `replace_append_of_forall` : what holds no beginning of an occurrence is left as it is.
-/

namespace Py

variable {α : Type*} [DecidableEq α]

/-- `replace`, behind an occurrence with so many elements to skip. -/
def replaceFrom (old new : List α) : ℕ → List α → List α
  | _, [] => []
  | k + 1, _ :: cs => replaceFrom old new k cs
  | 0, c :: cs =>
    if old <+: c :: cs then new ++ replaceFrom old new (old.length - 1) cs
    else c :: replaceFrom old new 0 cs

/-- `text.replace(old, new)`. -/
def replace (old new text : List α) : List α := replaceFrom old new 0 text

variable {old new : List α}

@[simp] theorem replace_nil : replace old new [] = [] := rfl

theorem replaceFrom_append (xs rest : List α) :
    replaceFrom old new xs.length (xs ++ rest) = replace old new rest := by
  induction xs with
  | nil => rfl
  | cons x xs ih => exact ih

theorem replace_cons_of_not {c : α} {cs : List α} (h : ¬ old <+: c :: cs) :
    replace old new (c :: cs) = c :: replace old new cs := by
  rw [replace, replaceFrom, if_neg h]
  rfl

/-- An occurrence. -/
theorem replace_old_append (hne : old ≠ []) (rest : List α) :
    replace old new (old ++ rest) = new ++ replace old new rest := by
  cases old with
  | nil => exact absurd rfl hne
  | cons c cs =>
    have hprefix : c :: cs <+: c :: (cs ++ rest) := List.prefix_append (c :: cs) rest
    rw [List.cons_append, replace, replaceFrom, if_pos hprefix]
    exact congrArg (new ++ ·) (replaceFrom_append cs rest)

/-- No occurrence begins in the first part. -/
theorem replace_append_of_forall {xs rest : List α}
    (h : ∀ i < xs.length, ¬ old <+: (xs ++ rest).drop i) :
    replace old new (xs ++ rest) = xs ++ replace old new rest := by
  induction xs with
  | nil => rfl
  | cons x xs ih =>
    have hfirst : ¬ old <+: x :: (xs ++ rest) := h 0 (Nat.succ_pos _)
    rw [List.cons_append, replace_cons_of_not hfirst, List.cons_append]
    exact congrArg (x :: ·) (ih fun i hi => h (i + 1) (Nat.succ_lt_succ hi))

theorem replace_of_not_infix {xs : List α} (h : ¬ old <:+: xs) : replace old new xs = xs := by
  have hnil : replace old new (xs ++ []) = xs ++ replace old new [] := by
    refine replace_append_of_forall fun i _ hprefix => h ?_
    rw [List.append_nil] at hprefix
    exact hprefix.isInfix.trans (List.drop_suffix i xs).isInfix
  rwa [List.append_nil, replace_nil, List.append_nil] at hnil

omit [DecidableEq α] in
/-- An occurrence that begins before an element that it does not have ends before it. -/
theorem prefix_of_prefix_append_cons {c : α} {xs rest : List α} (hc : c ∉ old)
    (h : old <+: xs ++ c :: rest) : old <+: xs := by
  rcases le_or_gt old.length xs.length with hle | hlt
  · exact List.prefix_of_prefix_length_le h (List.prefix_append xs _) hle
  · obtain ⟨tail, htail⟩ := h
    have hget : (old ++ tail)[xs.length]? = some c := by
      rw [htail, List.getElem?_append_right le_rfl, Nat.sub_self]
      rfl
    rw [List.getElem?_append_left hlt] at hget
    exact absurd (List.mem_of_getElem? hget) hc

/-- The parts before and behind an element that is not in the old text are replaced apart. -/
theorem replaceFrom_append_cons {c : α} (hne : old ≠ []) (hc : c ∉ old) {xs : List α} {k : ℕ}
    (hk : k ≤ xs.length) (rest : List α) :
    replaceFrom old new k (xs ++ c :: rest) =
      replaceFrom old new k xs ++ c :: replace old new rest := by
  induction xs generalizing k with
  | nil =>
    obtain rfl : k = 0 := Nat.le_zero.1 hk
    have hnot : ¬ old <+: [] ++ c :: rest := fun h =>
      hne (List.prefix_nil.1 (prefix_of_prefix_append_cons hc h))
    exact replace_cons_of_not hnot
  | cons x xs ih =>
    cases k with
    | succ k => exact ih (Nat.le_of_succ_le_succ hk)
    | zero =>
      have hiff : old <+: x :: xs ++ c :: rest ↔ old <+: x :: xs :=
        ⟨prefix_of_prefix_append_cons hc, fun h => h.trans (List.prefix_append (x :: xs) _)⟩
      rw [List.cons_append] at hiff ⊢
      rw [replaceFrom, replaceFrom]
      by_cases hold : old <+: x :: xs
      · have hlen : old.length - 1 ≤ xs.length := by
          have := hold.length_le
          rw [List.length_cons] at this
          omega
        rw [if_pos (hiff.2 hold), if_pos hold, ih hlen, List.append_assoc]
      · rw [if_neg (mt hiff.1 hold), if_neg hold, ih (Nat.zero_le _), List.cons_append]

theorem replace_append_cons {c : α} (hne : old ≠ []) (hc : c ∉ old) (xs rest : List α) :
    replace old new (xs ++ c :: rest) = replace old new xs ++ c :: replace old new rest :=
  replaceFrom_append_cons hne hc (Nat.zero_le _) rest

omit [DecidableEq α] in
/-- No occurrence begins in a part without the first element. -/
theorem not_prefix_drop_of_notMem {c : α} {cs xs rest : List α} (hc : c ∉ xs) {i : ℕ}
    (hi : i < xs.length) : ¬ c :: cs <+: (xs ++ rest).drop i := by
  intro h
  rw [List.drop_append_of_le_length hi.le, List.drop_eq_getElem_cons hi, List.cons_append] at h
  rw [(List.cons_prefix_cons.1 h).1] at hc
  exact hc (List.getElem_mem hi)

theorem replace_append_of_notMem {c : α} {cs xs : List α} (hc : c ∉ xs) (rest : List α) :
    replace (c :: cs) new (xs ++ rest) = xs ++ replace (c :: cs) new rest :=
  replace_append_of_forall fun _ hi => not_prefix_drop_of_notMem hc hi

omit [DecidableEq α] in
/-- Before an element that the first part of the old text does not have, no occurrence begins unless
that part is there. -/
theorem not_prefix_drop {c : α} {head xs rest : List α} (hhead : head <+: old) (hc : c ∉ head)
    (h : ¬ head <:+: xs) {i : ℕ} (hi : i < (xs ++ [c]).length) :
    ¬ old <+: (xs ++ [c] ++ rest).drop i := by
  intro hold
  rw [List.length_append, List.length_singleton] at hi
  rw [List.append_assoc, List.singleton_append,
    List.drop_append_of_le_length (Nat.lt_succ_iff.1 hi)] at hold
  have hbegins : head <+: xs.drop i := prefix_of_prefix_append_cons hc (hhead.trans hold)
  exact h (hbegins.isInfix.trans (List.drop_suffix i xs).isInfix)

/-! ### The first occurrence -/

/-- What follows the first occurrence: `text.split(sep, 1)[1]`, if there is one. -/
def afterFirst (sep : List α) : List α → Option (List α)
  | [] => none
  | c :: cs => if sep <+: c :: cs then some ((c :: cs).drop sep.length) else afterFirst sep cs

theorem afterFirst_append_of_forall {sep xs rest : List α}
    (h : ∀ i < xs.length, ¬ sep <+: (xs ++ rest).drop i) :
    afterFirst sep (xs ++ rest) = afterFirst sep rest := by
  induction xs with
  | nil => rfl
  | cons x xs ih =>
    have hfirst : ¬ sep <+: x :: (xs ++ rest) := h 0 (Nat.succ_pos _)
    rw [List.cons_append, afterFirst, if_neg hfirst]
    exact ih fun i hi => h (i + 1) (Nat.succ_lt_succ hi)

theorem afterFirst_append_of_notMem {c : α} {cs xs : List α} (hc : c ∉ xs) (rest : List α) :
    afterFirst (c :: cs) (xs ++ rest) = afterFirst (c :: cs) rest :=
  afterFirst_append_of_forall fun _ hi => not_prefix_drop_of_notMem hc hi

theorem infix_of_afterFirst {sep xs rest : List α} (h : afterFirst sep xs = some rest) :
    sep <:+: xs := by
  induction xs with
  | nil => cases h
  | cons x xs ih =>
    rw [afterFirst] at h
    split_ifs at h with hsep
    · exact hsep.isInfix
    · exact (ih h).trans (List.suffix_cons x xs).isInfix

theorem afterFirst_append {sep : List α} (hne : sep ≠ []) (rest : List α) :
    afterFirst sep (sep ++ rest) = some rest := by
  cases sep with
  | nil => exact absurd rfl hne
  | cons c cs =>
    have hprefix : c :: cs <+: c :: (cs ++ rest) := List.prefix_append (c :: cs) rest
    rw [List.cons_append, afterFirst, if_pos hprefix]
    have hdrop : (c :: cs ++ rest).drop (c :: cs).length = rest := List.drop_left
    exact congrArg some hdrop

end Py

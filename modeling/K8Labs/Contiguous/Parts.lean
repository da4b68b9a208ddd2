import Mathlib.Algebra.BigOperators.Group.List.Basic
import Mathlib.Algebra.Order.BigOperators.Group.List
import Mathlib.Algebra.Order.Monoid.Defs
import Mathlib.Data.List.Chain

/-!
# Contiguous parts within a bound

A list is cut into parts, each of a weight within a bound.  Parts are `Tight` if no part could have
taken the first element of the next one.

* `Tight.open`, `Tight.extend` : filling the last part, or opening another when it is full, keeps
  parts tight.
* `Tight.length_le` : no other parts within the bound are fewer.
-/

namespace Contiguous

variable {α M : Type*} [AddCommMonoid M]

/-- The weight of a part. -/
def weight (w : α → M) (part : List α) : M := (part.map w).sum

@[simp] theorem weight_append (w : α → M) (xs ys : List α) :
    weight w (xs ++ ys) = weight w xs + weight w ys := by
  rw [weight, List.map_append, List.sum_append]
  rfl

variable [LinearOrder M]

/-- The first element of the next part does not fit. -/
def Full (w : α → M) (bound : M) (part next : List α) : Prop :=
  ∃ x ∈ next.head?, bound < weight w part + w x

/-- No part is empty, and each but the last is full. -/
structure Tight (w : α → M) (bound : M) (parts : List (List α)) : Prop where
  ne_nil : ∀ part ∈ parts, part ≠ []
  full : parts.IsChain (Full w bound)

variable {w : α → M} {bound : M} {parts : List (List α)} {part next : List α} {x : α}

theorem tight_nil : Tight w bound ([] : List (List α)) where
  ne_nil _ h := nomatch h
  full := .nil

theorem tight_singleton (x : α) : Tight w bound [[x]] where
  ne_nil := List.forall_mem_singleton.2 (List.cons_ne_nil x [])
  full := .singleton _

/-- Opening a part behind a full one. -/
theorem Tight.open (h : Tight w bound (parts ++ [part])) (hfull : bound < weight w part + w x) :
    Tight w bound (parts ++ [part] ++ [[x]]) where
  ne_nil next hnext := by
    rcases List.mem_append.1 hnext with hnext | hnext
    · exact h.ne_nil next hnext
    · rw [List.mem_singleton.1 hnext]
      exact List.cons_ne_nil x []
  full := by
    refine List.isChain_append.2 ⟨h.full, .singleton _, fun last hlast next hnext => ?_⟩
    rw [List.getLast?_concat] at hlast
    cases hlast
    cases hnext
    exact ⟨x, rfl, hfull⟩

/-- Filling the last part. -/
theorem Tight.extend (h : Tight w bound (parts ++ [part])) :
    Tight w bound (parts ++ [part ++ [x]]) where
  ne_nil next hnext := by
    rcases List.mem_append.1 hnext with hnext | hnext
    · exact h.ne_nil next (List.mem_append_left _ hnext)
    · rw [List.mem_singleton.1 hnext]
      exact List.append_ne_nil_of_right_ne_nil _ (List.cons_ne_nil x [])
  full := by
    obtain ⟨hbefore, -, hjoin⟩ := List.isChain_append.1 h.full
    refine List.isChain_append.2 ⟨hbefore, .singleton _, fun last hlast next hnext => ?_⟩
    cases hnext
    obtain ⟨first, hfirst, hfull⟩ := hjoin last hlast part rfl
    refine ⟨first, ?_, hfull⟩
    rw [List.head?_append_of_ne_nil _ (h.ne_nil part (List.mem_append_right _ List.mem_cons_self))]
    exact hfirst

variable [IsOrderedAddMonoid M]

theorem weight_nonneg (hw : ∀ x, 0 ≤ w x) (part : List α) : 0 ≤ weight w part :=
  List.sum_nonneg fun m hm => by
    obtain ⟨x, -, rfl⟩ := List.mem_map.1 hm
    exact hw x

/-- A part that goes beyond a full one does not fit. -/
theorem Full.lt_weight (hw : ∀ x, 0 ≤ w x) (hfull : Full w bound part next)
    (before : List α) {rest : List α} (hhead : rest.head? = next.head?) :
    bound < weight w (before ++ part ++ rest) := by
  obtain ⟨x, hx, hlt⟩ := hfull
  obtain ⟨rest, rfl⟩ := List.head?_eq_some_iff.1 (hhead.trans hx)
  have hrest : weight w (x :: rest) = w x + weight w rest := List.sum_cons
  calc bound < weight w part + w x := hlt
    _ ≤ weight w before + weight w part + (w x + weight w rest) :=
        add_le_add (le_add_of_nonneg_left (weight_nonneg hw before))
          (le_add_of_nonneg_right (weight_nonneg hw rest))
    _ = weight w (before ++ part ++ (x :: rest)) := by rw [weight_append, weight_append, hrest]

/-- What is left to cut may begin before the tight parts do. -/
theorem Tight.length_le_of_suffix (hw : ∀ x, 0 ≤ w x) (h : Tight w bound parts)
    {before : List α} {others : List (List α)} (hflatten : others.flatten = before ++ parts.flatten)
    (hfits : ∀ part ∈ others, weight w part ≤ bound) : parts.length ≤ others.length := by
  induction parts generalizing before others with
  | nil => exact Nat.zero_le _
  | cons part parts ih =>
    have htight : Tight w bound parts :=
      ⟨fun next hnext => h.ne_nil next (List.mem_cons_of_mem _ hnext), h.full.tail⟩
    have hpart := h.ne_nil part List.mem_cons_self
    cases others with
    | nil => simp [hpart] at hflatten
    | cons first others =>
      obtain ⟨hfirst, hothers⟩ := List.forall_mem_cons.1 hfits
      rw [List.flatten_cons, List.flatten_cons, ← List.append_assoc] at hflatten
      rcases List.append_eq_append_iff.1 hflatten with ⟨left, hleft, hrest⟩ | ⟨rest, hrest, hleft⟩
      · -- the first of the others ends within the tight part
        exact Nat.succ_le_succ (ih htight hrest hothers)
      · by_cases hempty : rest = []
        · rw [hempty, List.nil_append] at hleft
          have hsame : others.flatten = [] ++ parts.flatten := hleft.symm
          exact Nat.succ_le_succ (ih htight hsame hothers)
        · -- it takes an element of the next tight part as well
          cases parts with
          | nil => exact absurd (List.append_eq_nil_iff.1 hleft.symm).1 hempty
          | cons next parts =>
            have hnext := htight.ne_nil next List.mem_cons_self
            have hhead : rest.head? = next.head? := by
              have heads := congrArg List.head? hleft
              rw [List.flatten_cons, List.head?_append_of_ne_nil _ hnext,
                List.head?_append_of_ne_nil _ hempty] at heads
              exact heads.symm
            have hfull := (List.isChain_cons_cons.1 h.full).1
            refine absurd hfirst (not_le.2 ?_)
            rw [hrest]
            exact hfull.lt_weight hw before hhead

/-- **Tight parts are fewest.** -/
theorem Tight.length_le (hw : ∀ x, 0 ≤ w x) (h : Tight w bound parts) {others : List (List α)}
    (hflatten : others.flatten = parts.flatten) (hfits : ∀ part ∈ others, weight w part ≤ bound) :
    parts.length ≤ others.length := by
  have hsame : others.flatten = [] ++ parts.flatten := hflatten
  exact h.length_le_of_suffix hw hsame hfits

end Contiguous

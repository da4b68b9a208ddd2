import Mathlib.Data.List.Nodup
import Mathlib.Tactic.SplitIfs

/-!
# Dictionaries

A dictionary as its items in insertion order.  `update` assigns to a key what a function makes of
the value that is there, if any: an existing key keeps its place, a new one comes last.
-/

namespace Py

namespace Dict

variable {α β : Type*} [DecidableEq α]

/-- `d[k] = f(d.get(k))`. -/
def update (k : α) (f : Option β → β) : List (α × β) → List (α × β)
  | [] => [(k, f none)]
  | (k', v) :: d => if k' = k then (k', f (some v)) :: d else (k', v) :: update k f d

section Lookup

variable [BEq α] [LawfulBEq α]

theorem lookup_cons (k' k : α) (v : β) (d : List (α × β)) :
    List.lookup k' ((k, v) :: d) = if k' = k then some v else d.lookup k' := by
  rw [List.lookup_cons]
  split_ifs with h
  · rw [h, beq_self_eq_true]
  · rw [beq_eq_false_iff_ne.2 h]

theorem lookup_update (k : α) (f : Option β → β) (d : List (α × β)) (k' : α) :
    (update k f d).lookup k' = if k' = k then some (f (d.lookup k)) else d.lookup k' := by
  induction d with
  | nil => rw [update, lookup_cons]; rfl
  | cons p d ih =>
    obtain ⟨j, v⟩ := p
    rw [update]
    split_ifs with hj h h
    · rw [lookup_cons, lookup_cons, if_pos (h.trans hj.symm), if_pos hj.symm]
    · rw [lookup_cons, lookup_cons, if_neg fun h' => h (h'.trans hj), if_neg fun h' => h (h'.trans hj)]
    · rw [lookup_cons, lookup_cons, ih, if_neg fun h' => hj (h'.symm.trans h), if_pos h,
        if_neg fun h' => hj h'.symm]
    · rw [lookup_cons, lookup_cons, ih, if_neg h]

omit [DecidableEq α] in
theorem mem_of_lookup {k : α} {v : β} {d : List (α × β)} (h : d.lookup k = some v) : (k, v) ∈ d := by
  obtain ⟨before, after, rfl, -⟩ := List.lookup_eq_some_iff.1 h
  simp

/-- In a dictionary, the items are what can be looked up. -/
theorem mem_iff_lookup {d : List (α × β)} (h : (d.map Prod.fst).Nodup) {k : α} {v : β} :
    (k, v) ∈ d ↔ d.lookup k = some v := by
  refine ⟨fun hmem => ?_, mem_of_lookup⟩
  induction d with
  | nil => cases hmem
  | cons p d ih =>
    obtain ⟨j, u⟩ := p
    rw [List.map_cons, List.nodup_cons] at h
    rw [lookup_cons]
    rcases List.mem_cons.1 hmem with heq | htail
    · cases heq
      exact if_pos rfl
    · have hk : k ≠ j := by
        rintro rfl
        exact h.1 (List.mem_map.2 ⟨_, htail, rfl⟩)
      rw [if_neg hk, ih h.2 htail]

/-- With every key once, an item is what its key leads to. -/
theorem lookup_of_mem {k : α} {v : β} {d : List (α × β)} (hd : (d.map Prod.fst).Nodup)
    (h : (k, v) ∈ d) : d.lookup k = some v :=
  (mem_iff_lookup hd).1 h

end Lookup

/-- A new key comes last. -/
theorem update_of_notMem {k : α} {f : Option β → β} {d : List (α × β)} (h : k ∉ d.map Prod.fst) :
    update k f d = d ++ [(k, f none)] := by
  induction d with
  | nil => rfl
  | cons p d ih =>
    obtain ⟨j, v⟩ := p
    rw [List.map_cons, List.mem_cons, not_or] at h
    rw [update, if_neg (Ne.symm h.1), ih h.2]
    rfl

/-- Assigning to keys that are new one by one. -/
theorem foldl_update_of_nodup (g : α → β) {xs : List α} {d : List (α × β)}
    (h : (d.map Prod.fst ++ xs).Nodup) :
    xs.foldl (fun d x => update x (fun _ => g x) d) d = d ++ xs.map fun x => (x, g x) := by
  induction xs generalizing d with
  | nil => simp
  | cons x xs ih =>
    have hnew : x ∉ d.map Prod.fst := fun hmem =>
      List.disjoint_of_nodup_append h hmem List.mem_cons_self
    rw [List.foldl_cons, update_of_notMem hnew, ih (by simpa using h)]
    simp

/-- Assigning to one key of a dictionary that holds a value for each element of a list. -/
theorem update_map (k : α) (v : β) (g : α → β) {xs : List α} (h : xs.Nodup) :
    update k (fun _ => v) (xs.map fun x => (x, g x)) =
      (xs.map fun x => (x, if x = k then v else g x)) ++ if k ∈ xs then [] else [(k, v)] := by
  induction xs with
  | nil => rfl
  | cons x xs ih =>
    obtain ⟨hx, hxs⟩ := List.nodup_cons.1 h
    rw [List.map_cons, update]
    by_cases heq : x = k
    · subst heq
      have hrest : (xs.map fun y => (y, if y = x then v else g y)) = xs.map fun y => (y, g y) := by
        refine List.map_congr_left fun y hy => ?_
        have hyx : y ≠ x := fun hyx => hx (hyx ▸ hy)
        rw [if_neg hyx]
      rw [if_pos rfl, if_pos List.mem_cons_self, List.map_cons, hrest, if_pos rfl, List.append_nil]
    · rw [if_neg heq, ih hxs, List.map_cons, if_neg heq, List.cons_append]
      by_cases hk : k ∈ xs
      · rw [if_pos hk, if_pos (List.mem_cons_of_mem _ hk)]
      · rw [if_neg hk, if_neg fun hmem => hk ((List.mem_cons.1 hmem).resolve_left (Ne.symm heq))]

theorem keys_update (k : α) (f : Option β → β) (d : List (α × β)) :
    (update k f d).map Prod.fst =
      if k ∈ d.map Prod.fst then d.map Prod.fst else d.map Prod.fst ++ [k] := by
  induction d with
  | nil => simp [update]
  | cons p d ih =>
    obtain ⟨j, v⟩ := p
    by_cases hj : j = k
    · simp [update, hj]
    · rw [update, if_neg hj, List.map_cons, ih, List.map_cons]
      by_cases hmem : k ∈ d.map Prod.fst
      · rw [if_pos hmem, if_pos (List.mem_cons_of_mem _ hmem)]
      · rw [if_neg hmem, if_neg (by simp [Ne.symm hj, hmem])]
        rfl

theorem nodup_keys_update (k : α) (f : Option β → β) {d : List (α × β)}
    (h : (d.map Prod.fst).Nodup) : ((update k f d).map Prod.fst).Nodup := by
  rw [keys_update]
  split_ifs with hk
  · exact h
  · exact List.nodup_append.2 ⟨h, List.nodup_singleton k, by
      intro a ha b hb hab
      rw [List.mem_singleton] at hb
      exact hk (hb ▸ hab ▸ ha)⟩

/-- An item after an assignment is the assigned one or was there before. -/
theorem mem_update {k : α} {f : Option β → β} {d : List (α × β)} {p : α × β}
    (h : p ∈ update k f d) : p ∈ d ∨ ∃ old, p = (k, f old) := by
  induction d with
  | nil => exact .inr ⟨none, List.mem_singleton.1 h⟩
  | cons q d ih =>
    obtain ⟨j, v⟩ := q
    rw [update] at h
    split_ifs at h with hj
    · rcases List.mem_cons.1 h with rfl | h
      · exact .inr ⟨some v, by rw [hj]⟩
      · exact .inl (List.mem_cons_of_mem _ h)
    · rcases List.mem_cons.1 h with rfl | h
      · exact .inl List.mem_cons_self
      · exact (ih h).imp_left (List.mem_cons_of_mem _)

end Dict

end Py

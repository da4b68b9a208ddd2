import K8Labs.Python.Dict
import K8Labs.Python.Exc
import Mathlib.Data.List.Induction
import Mathlib.Data.List.Nodup

/-!
# Dictionaries filled from a list

`setdefault` reaches into a dictionary of dictionaries.  A loop that files every element of a list
under its key (`group`) leaves, under every key, what the same loop makes of the elements of that
key alone, its `share` (`mem_group`); and a loop that assigns (`index`) leaves the elements
themselves when no key comes twice (`index_eq_map`).  A loop that refuses an element whose place is
taken accepts the lists without repetition (`fold_fresh`).
-/

namespace Py

namespace Dict

variable {α κ ι β : Type*} [DecidableEq κ]

theorem mem_keys_iff_lookup [BEq κ] [LawfulBEq κ] {d : List (κ × β)} {k : κ} :
    k ∈ d.map Prod.fst ↔ ∃ v, d.lookup k = some v := by
  induction d with
  | nil => simp
  | cons p d ih =>
    obtain ⟨j, w⟩ := p
    rw [List.map_cons, List.mem_cons, lookup_cons]
    by_cases hk : k = j
    · exact iff_of_true (.inl hk) ⟨w, if_pos hk⟩
    · rw [if_neg hk, ← ih]
      exact or_iff_right hk

/-! ### Groups -/

/-- `d.setdefault(k, {})`, changed in place. -/
def setdefault (k : κ) (change : List (ι × β) → List (ι × β)) (d : List (κ × List (ι × β))) :
    List (κ × List (ι × β)) :=
  update k (fun old => change (old.getD [])) d

/-- The elements of a key. -/
def share (key : α → κ) (xs : List α) (k : κ) : List α := xs.filter fun x => key x = k

@[simp] theorem mem_share {key : α → κ} {xs : List α} {k : κ} {x : α} :
    x ∈ share key xs k ↔ x ∈ xs ∧ key x = k := by
  simp [share]

theorem share_sublist (key : α → κ) (xs : List α) (k : κ) : (share key xs k).Sublist xs :=
  List.filter_sublist

theorem share_ne_nil {key : α → κ} {xs : List α} {k : κ} :
    share key xs k ≠ [] ↔ ∃ x ∈ xs, key x = k := by
  rw [Ne, List.eq_nil_iff_forall_not_mem]
  simp

theorem share_append_singleton (key : α → κ) (xs : List α) (x : α) (k : κ) :
    share key (xs ++ [x]) k = share key xs k ++ if key x = k then [x] else [] := by
  rw [share, List.filter_append]
  by_cases hx : key x = k <;> simp [share, hx]

/-- Every element filed under its key, in order. -/
def group (key : α → κ) (file : List (ι × β) → α → List (ι × β)) (xs : List α) :
    List (κ × List (ι × β)) :=
  xs.foldl (fun d x => setdefault (key x) (file · x) d) []

variable {key : α → κ} {file : List (ι × β) → α → List (ι × β)} {xs : List α} {k : κ}

theorem nodup_keys_group : ((group key file xs).map Prod.fst).Nodup := by
  induction xs using List.reverseRecOn with
  | nil => exact List.nodup_nil
  | append_singleton xs x ih =>
    rw [group, List.foldl_append]
    exact nodup_keys_update _ _ ih

/-- What is filed under a key is what filing the share of the key makes. -/
theorem lookup_group [BEq κ] [LawfulBEq κ] :
    (group key file xs).lookup k =
      if share key xs k = [] then none else some ((share key xs k).foldl file []) := by
  induction xs using List.reverseRecOn with
  | nil => rfl
  | append_singleton xs x ih =>
    have hstep : group key file (xs ++ [x]) = setdefault (key x) (file · x) (group key file xs) := by
      rw [group, List.foldl_append]
      rfl
    rw [hstep, setdefault, lookup_update, share_append_singleton]
    by_cases hx : key x = k
    · have hne : share key xs k ++ [x] ≠ [] := by simp
      rw [if_pos hx, if_pos hx.symm, hx, ih, if_neg hne, List.foldl_append]
      by_cases hnil : share key xs k = []
      · rw [hnil]
        rfl
      · rw [if_neg hnil]
        rfl
    · rw [if_neg hx, if_neg (Ne.symm hx), List.append_nil, ih]

/-- What is filed under a key, nothing if the key is missing. -/
theorem getD_lookup_group [BEq κ] [LawfulBEq κ] :
    ((group key file xs).lookup k).getD [] = (share key xs k).foldl file [] := by
  rw [lookup_group]
  split_ifs with h
  · rw [h]
    rfl
  · rfl

theorem mem_group {d : List (ι × β)} :
    (k, d) ∈ group key file xs ↔ (∃ x ∈ xs, key x = k) ∧ d = (share key xs k).foldl file [] := by
  rw [mem_iff_lookup nodup_keys_group, lookup_group, ← share_ne_nil]
  split_ifs with h
  · simp [h]
  · simp [h, eq_comm]

theorem mem_keys_group : k ∈ (group key file xs).map Prod.fst ↔ ∃ x ∈ xs, key x = k := by
  rw [mem_keys_iff_lookup, lookup_group, ← share_ne_nil]
  split_ifs with h <;> simp [h]

/-! ### Assignments -/

/-- `d[key(x)] = value(x)` for every element. -/
def index (key : α → κ) (value : α → β) (xs : List α) : List (κ × β) :=
  xs.foldl (fun d x => update (key x) (fun _ => value x) d) []

variable {value : α → β}

theorem index_append_singleton (x : α) :
    index key value (xs ++ [x]) = update (key x) (fun _ => value x) (index key value xs) := by
  rw [index, List.foldl_append]
  rfl

theorem nodup_keys_index : ((index key value xs).map Prod.fst).Nodup := by
  induction xs using List.reverseRecOn with
  | nil => exact List.nodup_nil
  | append_singleton xs x ih =>
    rw [index_append_singleton]
    exact nodup_keys_update _ _ ih

theorem mem_keys_index : k ∈ (index key value xs).map Prod.fst ↔ ∃ x ∈ xs, key x = k := by
  induction xs using List.reverseRecOn with
  | nil => simp [index]
  | append_singleton xs x ih =>
    rw [index_append_singleton, keys_update]
    split_ifs with hx
    · rw [ih]
      constructor
      · rintro ⟨y, hy, heq⟩
        exact ⟨y, List.mem_append_left _ hy, heq⟩
      · rintro ⟨y, hy, heq⟩
        rcases List.mem_append.1 hy with hy | hy
        · exact ⟨y, hy, heq⟩
        · rw [List.mem_singleton.1 hy] at heq
          rwa [heq, ih] at hx
    · simp [ih, or_and_right, exists_or, eq_comm]

/-- Of the elements of a key the last one counts. -/
theorem lookup_index_eq_getLast? [BEq κ] [LawfulBEq κ] :
    (index key value xs).lookup k = (share key xs k).getLast?.map value := by
  induction xs using List.reverseRecOn with
  | nil => rfl
  | append_singleton xs x ih =>
    rw [index_append_singleton, lookup_update, share_append_singleton]
    by_cases hx : key x = k
    · rw [if_pos hx.symm, if_pos hx, List.getLast?_concat]
      rfl
    · rw [if_neg (Ne.symm hx), if_neg hx, List.append_nil, ih]

/-- When no key comes twice, the items are the elements. -/
theorem index_eq_map (h : (xs.map key).Nodup) :
    index key value xs = xs.map fun x => (key x, value x) := by
  induction xs using List.reverseRecOn with
  | nil => rfl
  | append_singleton xs x ih =>
    rw [List.map_append, List.nodup_append] at h
    have hnot : key x ∉ (index key value xs).map Prod.fst := by
      rw [mem_keys_index]
      rintro ⟨y, hy, heq⟩
      exact h.2.2 _ (List.mem_map.2 ⟨y, hy, rfl⟩) _ (List.mem_singleton.2 rfl) heq
    rw [index_append_singleton, update_of_notMem hnot, ih h.1, List.map_append]
    rfl

theorem lookup_index [BEq κ] [LawfulBEq κ] (h : (xs.map key).Nodup) {x : α} (hx : x ∈ xs) :
    (index key value xs).lookup (key x) = some (value x) := by
  rw [← mem_iff_lookup nodup_keys_index, index_eq_map h]
  exact List.mem_map.2 ⟨x, hx, rfl⟩

/-! ### Repetitions -/

/-- Without repetitions the share of a key is one element. -/
theorem share_eq_singleton (h : (xs.map key).Nodup) {x : α} (hx : x ∈ xs) :
    share key xs (key x) = [x] := by
  induction xs with
  | nil => cases hx
  | cons y xs ih =>
    rw [List.map_cons, List.nodup_cons] at h
    rw [share, List.filter_cons]
    rcases List.mem_cons.1 hx with rfl | hx
    · have hrest : xs.filter (fun y => key y = key x) = [] :=
        List.filter_eq_nil_iff.2 fun y hy heq =>
          h.1 (List.mem_map.2 ⟨y, hy, of_decide_eq_true heq⟩)
      simp [hrest]
    · have hne : key y ≠ key x := fun heq => h.1 (List.mem_map.2 ⟨x, hx, heq.symm⟩)
      rw [if_neg (by simpa using hne)]
      exact ih h.2 hx

/-- **A loop that refuses repetitions.**  An element is refused when its place is taken, that is,
when one with the same name came before: the loop accepts a list exactly when no name comes twice,
and then places all its elements. -/
theorem fold_fresh {D ν ε : Type*} [DecidableEq ν] {taken : D → α → Prop}
    [∀ d x, Decidable (taken d x)] {place : D → α → D} {refuse : α → ε} {start : D} (name : α → ν)
    (htaken : ∀ (xs : List α) x, taken (xs.foldl place start) x ↔ ∃ y ∈ xs, name y = name x)
    (xs : List α) :
    ((xs.map name).Nodup ∧
      fold (fun d x => if taken d x then .error (refuse x) else .ok (place d x)) start xs =
        .ok (xs.foldl place start)) ∨
    (¬ (xs.map name).Nodup ∧ ∃ x ∈ xs,
      fold (fun d x => if taken d x then .error (refuse x) else .ok (place d x)) start xs =
        .error (refuse x)) := by
  induction xs using List.reverseRecOn with
  | nil => exact .inl ⟨List.nodup_nil, rfl⟩
  | append_singleton xs x ih =>
    rw [List.map_append, List.map_singleton, List.nodup_append]
    rcases ih with ⟨hnodup, hok⟩ | ⟨hnot, y, hy, herror⟩
    · rw [fold_append, hok, List.foldl_append]
      by_cases hx : ∃ y ∈ xs, name y = name x
      · refine .inr ⟨?_, x, by simp, ?_⟩
        · rintro ⟨-, -, hne⟩
          obtain ⟨y, hy, heq⟩ := hx
          exact hne _ (List.mem_map.2 ⟨y, hy, rfl⟩) _ (List.mem_singleton.2 rfl) heq
        · simp [Except.bind, fold, (htaken xs x).2 hx]
      · refine .inl ⟨⟨hnodup, List.nodup_singleton _, ?_⟩, ?_⟩
        · rintro a ha b hb rfl
          obtain ⟨y, hy, rfl⟩ := List.mem_map.1 ha
          exact hx ⟨y, hy, List.mem_singleton.1 hb⟩
        · simp [Except.bind, fold, mt (htaken xs x).1 hx]
    · refine .inr ⟨fun h => hnot h.1, y, List.mem_append_left _ hy, ?_⟩
      rw [fold_append, herror]
      rfl

end Dict

end Py

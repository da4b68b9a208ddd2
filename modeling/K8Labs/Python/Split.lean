import K8Labs.Python.Text

/-!
# Splitting at the first separators

`text.split(c, n)`: at most so many splits, from the left.

* `splitMax_append` : what stands before the first separators.
* `intercalate_splitMax` : the parts, joined again, are the text.
-/

namespace Py

variable {c : Char}

/-- `text.split(c, n)`. -/
def splitMax (c : Char) : ℕ → List Char → List (List Char)
  | 0, text => [text]
  | n + 1, text =>
    match partition c text with
    | none => [text]
    | some (before, after) => before :: splitMax c n after

theorem splitMax_append {n : ℕ} {before : List Char} (h : c ∉ before) (after : List Char) :
    splitMax c (n + 1) (before ++ c :: after) = before :: splitMax c n after := by
  rw [splitMax, partition_append h]

theorem splitMax_ne_nil (n : ℕ) (text : List Char) : splitMax c n text ≠ [] := by
  cases n with
  | zero => exact List.cons_ne_nil _ _
  | succ n =>
    rw [splitMax]
    split <;> exact List.cons_ne_nil _ _

/-- Nothing is lost: the separators are put back between the parts. -/
theorem intercalate_splitMax (c : Char) (n : ℕ) (text : List Char) :
    [c].intercalate (splitMax c n text) = text := by
  induction n generalizing text with
  | zero => simp [splitMax]
  | succ n ih =>
    rw [splitMax]
    split
    · simp
    · next before after h =>
      rw [List.intercalate_cons_of_ne_nil (splitMax_ne_nil n after), ih, (partition_eq_some h).1]
      simp

/-- The parts before the last hold no separator. -/
theorem notMem_of_splitMax {n : ℕ} {text part : List Char} {parts : List (List Char)}
    (h : splitMax c n text = part :: parts) (hne : parts ≠ []) : c ∉ part := by
  cases n with
  | zero =>
    cases h
    exact absurd rfl hne
  | succ n =>
    rw [splitMax] at h
    split at h
    · cases h
      exact absurd rfl hne
    · next before after hsplit =>
      cases h
      exact (partition_eq_some hsplit).2

end Py

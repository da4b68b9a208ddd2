import K8Labs.Python.Replace
import Mathlib.Data.List.DropRight

/-!
# Where a text begins

`text.find(sub)`, and the whole lines before and behind a place in a text.

* `find_append_of_notInfix` : before a character that is not in the text that is looked for, nothing
  begins that does not end there.
* `atLineStart_linesBefore` : what stands before the line of a place ends where a line ends.
-/

namespace Py

section Find

variable {α : Type*} [DecidableEq α]

/-- `text.find(sub)`, `none` for -1. -/
def find (sub : List α) : List α → Option ℕ
  | [] => if sub = [] then some 0 else none
  | c :: cs => if sub <+: c :: cs then some 0 else (find sub cs).map (· + 1)

variable {sub xs rest : List α} {i : ℕ}

theorem find_append_self (hne : sub ≠ []) (rest : List α) : find sub (sub ++ rest) = some 0 := by
  cases sub with
  | nil => exact absurd rfl hne
  | cons c cs =>
    rw [List.cons_append, find, if_pos]
    exact List.prefix_append (c :: cs) rest

theorem find_append_of_forall (h : ∀ i < xs.length, ¬ sub <+: (xs ++ rest).drop i) :
    find sub (xs ++ rest) = (find sub rest).map (· + xs.length) := by
  induction xs with
  | nil => simp
  | cons x xs ih =>
    have hfirst : ¬ sub <+: x :: (xs ++ rest) := h 0 (Nat.succ_pos _)
    rw [List.cons_append, find, if_neg hfirst, ih fun i hi => h (i + 1) (Nat.succ_lt_succ hi),
      Option.map_map]
    rfl

/-- A part without the text, and a character behind it that is not in the text. -/
theorem find_append_of_notInfix {c : α} (hc : c ∉ sub) (h : ¬ sub <:+: xs) (rest : List α) :
    find sub (xs ++ c :: rest) = (find sub rest).map (· + (xs.length + 1)) := by
  have hbegins : ∀ i < (xs ++ [c]).length, ¬ sub <+: (xs ++ [c] ++ rest).drop i :=
    fun i hi => not_prefix_drop (List.prefix_refl sub) hc h hi
  have := find_append_of_forall hbegins
  rwa [List.append_assoc, List.singleton_append, List.length_append, List.length_singleton] at this

theorem find_eq_none_iff : find sub xs = none ↔ ¬ sub <:+: xs := by
  induction xs with
  | nil => simp [find]
  | cons x xs ih =>
    rw [find, List.infix_cons_iff]
    by_cases hfirst : sub <+: x :: xs
    · simp [hfirst]
    · simp [hfirst, ih]

/-- What stands at the place of a text. -/
theorem eq_of_find (h : find sub xs = some i) :
    xs = xs.take i ++ sub ++ xs.drop (i + sub.length) := by
  induction xs generalizing i with
  | nil =>
    rw [find] at h
    split_ifs at h with hnil
    cases h
    simp [hnil]
  | cons x xs ih =>
    rw [find] at h
    split_ifs at h with hfirst
    · cases h
      rw [List.take_zero, List.nil_append, Nat.zero_add]
      exact List.prefix_iff_eq_append.1 hfirst |>.symm
    · obtain ⟨j, hj, rfl⟩ := Option.map_eq_some_iff.1 h
      rw [Nat.add_right_comm, List.take_succ_cons, List.drop_succ_cons, List.cons_append,
        List.cons_append]
      exact congrArg (x :: ·) (ih hj)

/-- The text is not in what stands before its first place. -/
theorem notInfix_take_of_find (hne : sub ≠ []) (h : find sub xs = some i) :
    ¬ sub <:+: xs.take i := by
  induction xs generalizing i with
  | nil => simpa using hne
  | cons x xs ih =>
    rw [find] at h
    split_ifs at h with hfirst
    · cases h
      simpa using hne
    · obtain ⟨j, hj, rfl⟩ := Option.map_eq_some_iff.1 h
      rw [List.take_succ_cons, List.infix_cons_iff, not_or]
      exact ⟨fun hbegins => hfirst (hbegins.trans (List.take_prefix (j + 1) (x :: xs))), ih hj⟩

omit [DecidableEq α] in
/-- An element that is not in the text separates the places where the text can be. -/
theorem infix_append_cons_iff {c : α} (hc : c ∉ sub) :
    sub <:+: xs ++ c :: rest ↔ sub <:+: xs ∨ sub <:+: rest := by
  constructor
  · intro h
    induction xs with
    | nil =>
      rcases List.infix_cons_iff.1 h with hfirst | hrest
      · exact .inl (prefix_of_prefix_append_cons hc hfirst).isInfix
      · exact .inr hrest
    | cons x xs ih =>
      rcases List.infix_cons_iff.1 h with hfirst | hrest
      · exact .inl (prefix_of_prefix_append_cons hc hfirst).isInfix
      · exact (ih hrest).imp_left fun hin => hin.trans (List.suffix_cons x xs).isInfix
  · rintro (h | h)
    · exact h.trans (List.prefix_append _ _).isInfix
    · exact h.trans ((List.suffix_cons c rest).trans (List.suffix_append xs _)).isInfix

end Find

/-! ### Whole lines -/

/-- `text[:text.rfind("\n", 0, i) + 1]`: the lines before the one of the place. -/
def linesBefore (text : List Char) (i : ℕ) : List Char := (text.take i).rdropWhile (· ≠ '\n')

/-- The lines behind the one of the place: `text[text.find("\n", i) + 1:]`, or nothing if no line
follows. -/
def linesBehind (text : List Char) (i : ℕ) : List Char :=
  ((text.drop i).dropWhile (· ≠ '\n')).drop 1

/-- The text is nothing or ends where a line ends. -/
def AtLineStart (text : List Char) : Prop := text = [] ∨ ∃ before, text = before ++ ['\n']

variable {text sub : List Char} {i : ℕ}

theorem atLineStart_linesBefore : AtLineStart (linesBefore text i) := by
  rw [AtLineStart, or_iff_not_imp_left]
  intro hne
  have hlast := List.rdropWhile_last_not _ _ hne
  rw [decide_eq_true_eq, not_not] at hlast
  exact ⟨_, by rw [← hlast]; exact (List.dropLast_append_getLast hne).symm⟩

theorem linesBefore_prefix : linesBefore text i <+: text.take i := List.rdropWhile_prefix _ _

theorem AtLineStart.append_newline (text : List Char) : AtLineStart (text ++ ['\n']) :=
  .inr ⟨text, rfl⟩

theorem AtLineStart.infix_append_iff (h : AtLineStart text) (hnewline : '\n' ∉ sub)
    {rest : List Char} : sub <:+: text ++ rest ↔ sub <:+: text ∨ sub <:+: rest := by
  obtain rfl | ⟨before, rfl⟩ := h
  · exact ⟨.inr, fun h => h.elim (fun hnil => hnil.trans (List.nil_infix)) id⟩
  · rw [List.append_assoc, List.singleton_append, infix_append_cons_iff hnewline,
      infix_append_cons_iff hnewline, List.infix_nil]
    constructor
    · exact Or.imp_left .inl
    · rintro ((h | rfl) | h)
      · exact .inl h
      · exact .inl List.nil_infix
      · exact .inr h

theorem AtLineStart.linesBefore_append (h : AtLineStart text) (rest : List Char) :
    linesBefore (text ++ rest) text.length = text := by
  rw [linesBefore, List.take_left]
  obtain rfl | ⟨before, rfl⟩ := h
  · rfl
  · exact List.rdropWhile_concat_neg _ _ _ (by simp)

theorem linesBehind_append {line : List Char} (h : '\n' ∉ line) (text rest : List Char) :
    linesBehind (text ++ (line ++ '\n' :: rest)) text.length = rest := by
  rw [linesBehind, List.drop_left, List.dropWhile_append_of_pos, List.dropWhile_cons_of_neg]
  · rfl
  · simp
  · intro c hc
    simpa using ne_of_mem_of_not_mem hc h

/-- What is looked for begins behind whole lines without it. -/
theorem AtLineStart.find_append (h : AtLineStart text) (hnewline : '\n' ∉ sub)
    (hnot : ¬ sub <:+: text) (rest : List Char) :
    find sub (text ++ rest) = (find sub rest).map (· + text.length) := by
  obtain rfl | ⟨before, rfl⟩ := h
  · simp
  · rw [infix_append_cons_iff hnewline, not_or] at hnot
    rw [List.append_assoc, List.singleton_append,
      find_append_of_notInfix hnewline hnot.1, List.length_append, List.length_singleton]

end Py

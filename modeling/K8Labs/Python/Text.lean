import K8Labs.Python.Str
import Mathlib.Data.List.Infix

/-!
# Searching, replacing and splitting text
-/

namespace Py

/-- `s in t`. -/
def isIn (s t : String) : Bool := t.toList.tails.any s.toList.isPrefixOf

/-- `t.startswith(s)`. -/
def startsWith (t s : String) : Bool := s.toList.isPrefixOf t.toList

/-- `t.endswith(s)`. -/
def endsWith (t s : String) : Bool := s.toList.isSuffixOf t.toList

/-- `t.replace(c, s)` for one character. -/
def replaceChar (t : String) (c : Char) (s : String) : String :=
  String.ofList (t.toList.flatMap fun d => if d = c then s.toList else [d])

/-- `t.split()`. -/
def splitWords (t : String) : List String :=
  ((t.toList.splitOnP isSpace).filter (· ≠ [])).map String.ofList

/-- `t.split(maxsplit=1)`. -/
def splitFirst (t : String) : List String :=
  let cs := t.toList.dropWhile isSpace
  let rest := (cs.dropWhile fun c => !isSpace c).dropWhile isSpace
  ([cs.takeWhile fun c => !isSpace c, rest].filter (· ≠ [])).map String.ofList

/-- `t.partition(c)`: the text before the first separator and the text after it. -/
def partition (c : Char) (t : List Char) : Option (List Char × List Char) :=
  if c ∈ t then some (t.takeWhile (· != c), (t.dropWhile (· != c)).tail) else none

/-- `t.isdecimal()`. -/
def isDecimal (t : String) : Bool := t != "" && t.toList.all isDigit

/-! ### Searching -/

theorem isIn_iff {s t : String} : isIn s t = true ↔ s.toList <:+: t.toList := by
  rw [isIn, List.any_eq_true]
  constructor
  · rintro ⟨tail, htail, hprefix⟩
    exact (List.isPrefixOf_iff_prefix.1 hprefix).isInfix.trans ((List.mem_tails _ _).1 htail).isInfix
  · rintro ⟨xs, ys, h⟩
    refine ⟨s.toList ++ ys, (List.mem_tails _ _).2 ⟨xs, ?_⟩, ?_⟩
    · rw [← List.append_assoc, h]
    · exact List.isPrefixOf_iff_prefix.2 (List.prefix_append _ _)

/-- A pattern whose first character occurs once is where that character is. -/
theorem cons_isInfix_append_cons {c : Char} {s xs t : List Char} (hxs : c ∉ xs) (ht : c ∉ t) :
    c :: s <:+: xs ++ c :: t ↔ s <+: t := by
  constructor
  · rintro ⟨before, after, h⟩
    rw [List.append_assoc, List.cons_append, eq_comm,
      List.append_cons_inj_of_notMem hxs ht] at h
    exact ⟨after, h.2.2.symm⟩
  · rintro ⟨after, rfl⟩
    exact ⟨xs, after, by simp⟩

/-! ### Partition -/

theorem partition_append {c : Char} {xs : List Char} (h : c ∉ xs) (ys : List Char) :
    partition c (xs ++ c :: ys) = some (xs, ys) := by
  have hne : ∀ d ∈ xs, (d != c) = true := fun d hd => by
    rw [bne_iff_ne]
    rintro rfl
    exact h hd
  rw [partition, if_pos (by simp), List.takeWhile_append_of_pos hne, List.dropWhile_append_of_pos hne]
  simp

/-- Two texts that are the same are so before their first separator, and after it. -/
theorem append_cons_inj {c : Char} {xs xs' ys ys' : List Char} (hx : c ∉ xs) (hx' : c ∉ xs')
    (h : xs ++ c :: ys = xs' ++ c :: ys') : xs = xs' ∧ ys = ys' := by
  have := congrArg (partition c) h
  rw [partition_append hx, partition_append hx'] at this
  simpa using this

theorem partition_eq_none {c : Char} {xs : List Char} (h : c ∉ xs) : partition c xs = none :=
  if_neg h

theorem partition_eq_some {c : Char} {xs before after : List Char}
    (h : partition c xs = some (before, after)) : xs = before ++ c :: after ∧ c ∉ before := by
  unfold partition at h
  split_ifs at h with hc
  cases h
  have hdrop : xs.dropWhile (· != c) ≠ [] := by
    intro hnil
    have := List.dropWhile_eq_nil_iff.1 hnil c hc
    simp at this
  have hhead : (xs.dropWhile (· != c)).head hdrop = c := by
    have := List.head_dropWhile_not (· != c) hdrop
    simpa using this
  refine ⟨?_, fun hmem => by simpa using List.mem_takeWhile_imp hmem⟩
  conv_lhs => rw [← List.takeWhile_append_dropWhile (p := (· != c)) (l := xs)]
  rw [← List.cons_head_tail hdrop, hhead]
  rfl

/-! ### Splitting -/

/-- The first part. -/
theorem takeWhile_mem_splitOn (d : Char) (text : List Char) :
    text.takeWhile (· != d) ∈ text.splitOn d := by
  by_cases hd : d ∈ text
  · obtain ⟨xs, ys, rfl, hxs⟩ := List.eq_append_cons_of_mem hd
    have hne : ∀ c ∈ xs, (c != d) = true := fun c hc => by
      rw [bne_iff_ne]
      rintro rfl
      exact hxs hc
    rw [List.splitOn_append_cons_self_of_not_mem hxs, List.takeWhile_append_of_pos hne,
      List.takeWhile_cons_of_neg (by simp), List.append_nil]
    exact List.mem_cons_self
  · have hne : ∀ c ∈ text, (c != d) = true := fun c hc => by
      rw [bne_iff_ne]
      rintro rfl
      exact hd hc
    rw [List.splitOn_eq_singleton hd, List.takeWhile_eq_self_iff.2 hne]
    exact List.mem_singleton_self _

theorem mem_intercalate {sep : List Char} {parts : List (List Char)} {c : Char}
    (h : c ∈ sep.intercalate parts) : c ∈ sep ∨ ∃ part ∈ parts, c ∈ part := by
  induction parts with
  | nil => cases h
  | cons part parts ih =>
    cases parts with
    | nil => exact .inr ⟨part, List.mem_cons_self, by simpa using h⟩
    | cons next parts =>
      rw [List.intercalate_cons_cons, List.mem_append, List.mem_append] at h
      rcases h with (h | h) | h
      · exact .inr ⟨part, List.mem_cons_self, h⟩
      · exact .inl h
      · exact (ih h).imp_right fun ⟨p, hp, hc⟩ => ⟨p, List.mem_cons_of_mem _ hp, hc⟩

theorem intercalate_append {sep : List Char} {parts : List (List Char)} (hne : parts ≠ []) :
    sep.intercalate parts ++ sep = parts.flatMap fun part => part ++ sep := by
  induction parts with
  | nil => exact absurd rfl hne
  | cons part parts ih =>
    cases parts with
    | nil => simp
    | cons next parts =>
      rw [List.intercalate_cons_cons, List.append_assoc, ih (by simp)]
      rfl

section Separator

variable {sep : Char → Bool}

/-- The first separator. -/
theorem eq_append_separator {t : List Char} (h : ∃ c ∈ t, sep c = true) :
    ∃ xs c ys, t = xs ++ c :: ys ∧ sep c = true ∧ ∀ d ∈ xs, sep d = false := by
  obtain ⟨c, hfind⟩ := Option.isSome_iff_exists.1 (List.find?_isSome.2 h)
  obtain ⟨hc, xs, ys, rfl, hxs⟩ := List.find?_eq_some_iff_append.1 hfind
  exact ⟨xs, c, ys, rfl, hc, fun d hd => by simpa using hxs d hd⟩

/-- What holds of a text, and of what comes after a separator when it holds before, holds of every
part with some text after it. -/
theorem forall_mem_splitOnP {P : List Char → Prop}
    (hstep : ∀ xs c ys, sep c = true → P (xs ++ c :: ys) → P ys) {t : List Char} (ht : P t) :
    ∀ part ∈ t.splitOnP sep, ∃ rest, P (part ++ rest) := by
  induction hn : t.length using Nat.strong_induction_on generalizing t with
  | _ n ih =>
    by_cases hsep : ∃ c ∈ t, sep c = true
    · obtain ⟨xs, c, ys, rfl, hc, hxs⟩ := eq_append_separator hsep
      rw [List.splitOnP_append_cons_of_forall_mem hxs c hc, List.forall_mem_cons]
      exact ⟨⟨c :: ys, ht⟩, ih ys.length (by simp at hn; omega) (hstep xs c ys hc ht) rfl⟩
    · have hnone : ∀ c ∈ t, sep c = false := fun c hc => by
        by_contra hne
        exact hsep ⟨c, hc, by simpa using hne⟩
      rw [List.splitOnP_eq_singleton hnone, List.forall_mem_singleton]
      exact ⟨[], by rwa [List.append_nil]⟩

end Separator

end Py

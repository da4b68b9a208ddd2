import K8Labs.Python.Exc
import K8Labs.Python.Number
import Mathlib.Data.List.TakeWhile

/-!
# Python strings

The string operations the modelled code uses, on the characters of a string: the Unicode decimal
digits that `\d` and `int` accept, white space and `strip`, line boundaries and `splitlines`,
`int` with the interpreter's limit on the number of digits, and the components of a pure path.

The tables are those of the Unicode character database the interpreter ships (version 14).
-/

namespace Py

/-! ### Decimal digits -/

/-- The code points of the digits zero: each starts a run of ten decimal digits. -/
def decimalZeros : List ℕ :=
  [48, 1632, 1776, 1984, 2406, 2534, 2662, 2790, 2918, 3046, 3174, 3302, 3430, 3558, 3664, 3792,
    3872, 4160, 4240, 6112, 6160, 6470, 6608, 6784, 6800, 6992, 7088, 7232, 7248, 42528, 43216,
    43264, 43472, 43504, 43600, 44016, 65296, 66720, 68912, 69734, 69872, 69942, 70096, 70384,
    70736, 70864, 71248, 71360, 71472, 71904, 72016, 72784, 73040, 73120, 92768, 92864, 93008,
    120782, 120792, 120802, 120812, 120822, 123200, 123632, 125264, 130032]

/-- The value of a decimal digit, `none` for every other character. -/
def digit? (c : Char) : Option ℕ :=
  (decimalZeros.find? fun z => decide (z ≤ c.toNat ∧ c.toNat < z + 10)).map fun z => c.toNat - z

/-- The character class `\d`. -/
def isDigit (c : Char) : Bool := (digit? c).isSome

/-- The number a run of decimal digits denotes. -/
def digitsValue (cs : List Char) : ℕ := cs.foldl (fun n c => 10 * n + (digit? c).getD 0) 0

/-- The digits a conversion between `int` and `str` may have. -/
def maxIntDigits : ℕ := 4300

/-- `int` of a run of decimal digits. -/
def intOfDigits (cs : List Char) : Except Exc ℕ :=
  if cs.length > maxIntDigits then
    valueError "Exceeds the limit (4300 digits) for integer string conversion"
  else .ok (digitsValue cs)

/-- `str` of a natural number, as characters. -/
def natDigits (n : ℕ) : List Char := Nat.toDigits 10 n

theorem digit?_of_isDigit {c : Char} (h : c.isDigit = true) : digit? c = some (c.toNat - 48) := by
  have h₁ : 48 ≤ c.toNat ∧ c.toNat < 58 := by
    simp only [Char.isDigit, Bool.and_eq_true, decide_eq_true_eq, ge_iff_le] at h
    have h₁ := UInt32.le_iff_toNat_le.1 h.1
    have h₂ := UInt32.le_iff_toNat_le.1 h.2
    exact ⟨h₁, Nat.lt_succ_of_le h₂⟩
  simp [digit?, decimalZeros, h₁.1, h₁.2]

theorem ne_of_isDigit {c d : Char} (hc : c.isDigit = true) (hd : d.isDigit = false) : d ≠ c := by
  rintro rfl
  rw [hc] at hd
  cases hd

/-- What holds of the ten digits holds of every digit. -/
theorem forall_digit {P : Char → Prop} (h : ∀ n < 10, P (Char.ofNat (48 + n))) {c : Char}
    (hc : c.isDigit = true) : P c := by
  simp only [Char.isDigit, Bool.and_eq_true, decide_eq_true_eq, ge_iff_le] at hc
  have h₁ : 48 ≤ c.toNat := UInt32.le_iff_toNat_le.1 hc.1
  have h₂ : c.toNat ≤ 57 := UInt32.le_iff_toNat_le.1 hc.2
  have := h (c.toNat - 48) (by omega)
  rwa [Nat.add_sub_cancel' h₁, Char.ofNat_toNat] at this

theorem isDigit_of_mem_natDigits {n : ℕ} {c : Char} (hc : c ∈ natDigits n) :
    c.isDigit = true := Nat.isDigit_of_mem_toDigits (by omega) (by omega) hc

/-- A positive number is not printed with a leading zero. -/
theorem head_natDigits {n : ℕ} (hn : 0 < n) : (natDigits n).head? ≠ some '0' := by
  induction n using Nat.strong_induction_on with
  | _ n ih =>
    rw [natDigits, Nat.toDigits_eq_if (by omega)]
    split_ifs with hlt
    · have hsmall : ∀ m < 10, 0 < m → [Nat.digitChar m].head? ≠ some '0' := by decide
      exact hsmall n hlt hn
    · rw [List.head?_append_of_ne_nil _ Nat.toDigits_ne_nil]
      exact ih (n / 10) (by omega) (by omega)

theorem isDigit_natDigits {n : ℕ} : ∀ c ∈ natDigits n, isDigit c = true := by
  intro c hc
  rw [isDigit, digit?_of_isDigit (isDigit_of_mem_natDigits hc)]
  rfl

theorem natDigits_ne_nil (n : ℕ) : natDigits n ≠ [] := Nat.toDigits_ne_nil

theorem digitsValue_eq_ofDigitChars {cs : List Char} (h : ∀ c ∈ cs, c.isDigit = true) :
    digitsValue cs = Nat.ofDigitChars 10 cs 0 := by
  have key : ∀ n, cs.foldl (fun n c => 10 * n + (digit? c).getD 0) n =
      Nat.ofDigitChars 10 cs n := by
    induction cs with
    | nil => simp
    | cons c cs ih =>
      intro n
      rw [List.foldl_cons, Nat.ofDigitChars_cons, ih fun d hd => h d (List.mem_cons_of_mem _ hd),
        digit?_of_isDigit (h c List.mem_cons_self)]
      rfl
  exact key 0

/-- Reading back what was printed. -/
@[simp] theorem digitsValue_natDigits (n : ℕ) : digitsValue (natDigits n) = n := by
  rw [digitsValue_eq_ofDigitChars fun c hc => isDigit_of_mem_natDigits hc, natDigits,
    Nat.ofDigitChars_toDigits (by omega) (by omega)]

theorem digitsValue_append (xs ys : List Char) :
    digitsValue (xs ++ ys) = digitsValue xs * 10 ^ ys.length + digitsValue ys := by
  have key : ∀ (ys : List Char) (n : ℕ), ys.foldl (fun n c => 10 * n + (digit? c).getD 0) n =
      n * 10 ^ ys.length + ys.foldl (fun n c => 10 * n + (digit? c).getD 0) 0 := by
    intro ys
    induction ys with
    | nil => simp
    | cons c ys ih =>
      intro n
      rw [List.foldl_cons, ih, List.foldl_cons, ih (10 * 0 + _), List.length_cons, pow_succ]
      ring
  rw [digitsValue, List.foldl_append, key]
  rfl

theorem digitsValue_replicate_zero (k : ℕ) : digitsValue (List.replicate k '0') = 0 := by
  induction k with
  | zero => rfl
  | succ k ih =>
    rw [List.replicate_succ', digitsValue_append, ih]
    decide

theorem digit?_lt {c : Char} {d : ℕ} (h : digit? c = some d) : d < 10 := by
  obtain ⟨z, hz, rfl⟩ := Option.map_eq_some_iff.1 h
  have hbounds : decide (z ≤ c.toNat ∧ c.toNat < z + 10) = true := by
    simpa only using List.find?_some hz
  have hlt := (of_decide_eq_true hbounds).2
  omega

theorem digitsValue_lt (cs : List Char) : digitsValue cs < 10 ^ cs.length := by
  induction cs with
  | nil => decide
  | cons c cs ih =>
    have hc : digitsValue [c] < 10 := by
      show 10 * 0 + (digit? c).getD 0 < 10
      cases hd : digit? c with
      | none => decide
      | some d => simpa using digit?_lt hd
    rw [← List.singleton_append, digitsValue_append, List.length_append, List.length_singleton,
      pow_add, pow_one]
    have hmul : digitsValue [c] * 10 ^ cs.length ≤ 9 * 10 ^ cs.length :=
      Nat.mul_le_mul_right _ (by omega)
    omega

/-- A 64-bit number is far below the limit on digits. -/
theorem intOfDigits_natDigits {n : ℕ} (hn : n < 2 ^ 64) : intOfDigits (natDigits n) = .ok n := by
  have hlen : (natDigits n).length ≤ 20 :=
    (Nat.length_toDigits_le_iff (by omega) (by omega)).2 (by omega)
  rw [intOfDigits, if_neg (by rw [maxIntDigits]; omega), digitsValue_natDigits]

theorem toList_toString (n : ℕ) : (toString n).toList = natDigits n := by
  rw [Nat.toString_eq_ofList_toDigits, String.toList_ofList, natDigits]

/-! ### Prefixes -/

section Prefixes

variable {α : Type*} [DecidableEq α]

theorem isPrefixOf?_append (p rest : List α) : p.isPrefixOf? (p ++ rest) = some rest := by
  induction p with
  | nil => cases rest <;> rfl
  | cons c p ih => simp [List.isPrefixOf?, ih]

theorem isPrefixOf?_eq_some {p cs rest : List α} (h : p.isPrefixOf? cs = some rest) :
    cs = p ++ rest := by
  induction p generalizing cs with
  | nil => cases cs <;> simp_all [List.isPrefixOf?]
  | cons c p ih =>
    cases cs with
    | nil => simp [List.isPrefixOf?] at h
    | cons d cs =>
      simp only [List.isPrefixOf?] at h
      split_ifs at h with hcd
      rw [ih h, beq_iff_eq.1 hcd]
      rfl

theorem isPrefixOf?_eq_none {p cs : List α} (h : ¬ p <+: cs) : p.isPrefixOf? cs = none := by
  cases hp : p.isPrefixOf? cs with
  | none => rfl
  | some rest => exact absurd ⟨rest, (isPrefixOf?_eq_some hp).symm⟩ h

end Prefixes

/-! ### White space and lines -/

/-- `str.isspace` of one character. -/
def isSpace (c : Char) : Bool :=
  [0x9, 0xa, 0xb, 0xc, 0xd, 0x1c, 0x1d, 0x1e, 0x1f, 0x20, 0x85, 0xa0, 0x1680, 0x2000, 0x2001,
    0x2002, 0x2003, 0x2004, 0x2005, 0x2006, 0x2007, 0x2008, 0x2009, 0x200a, 0x2028, 0x2029,
    0x202f, 0x205f, 0x3000].contains c.toNat

theorem isSpace_of_isDigit {c : Char} (h : c.isDigit = true) : isSpace c = false :=
  forall_digit (P := fun c => isSpace c = false) (by decide) h

/-- `str.strip`. -/
def strip (s : String) : String :=
  String.ofList (((s.toList.dropWhile isSpace).reverse.dropWhile isSpace).reverse)

theorem strip_cons_space (cs : List Char) :
    strip (String.ofList (' ' :: cs)) = strip (String.ofList cs) := by
  rw [strip, strip, String.toList_ofList, String.toList_ofList,
    List.dropWhile_cons_of_pos (by decide)]

theorem strip_eq_self {cs : List Char} (h : ∀ c ∈ cs, isSpace c = false) :
    strip (String.ofList cs) = String.ofList cs := by
  have hdrop : ∀ ds : List Char, (∀ c ∈ ds, isSpace c = false) → ds.dropWhile isSpace = ds := by
    intro ds hds
    cases ds with
    | nil => rfl
    | cons d ds => simp [hds d List.mem_cons_self]
  rw [strip, String.toList_ofList, hdrop cs h, hdrop cs.reverse fun c hc => h c (List.mem_reverse.1 hc),
    List.reverse_reverse]

/-- Only the newline after the last character is taken away. -/
theorem strip_append_newline {c d : Char} {cs : List Char} (hc : isSpace c = false)
    (hd : isSpace d = false) :
    strip (String.ofList (c :: (cs ++ [d, '\n']))) = String.ofList (c :: (cs ++ [d])) := by
  have hnewline : isSpace '\n' = true := by decide
  rw [strip, String.toList_ofList, List.dropWhile_cons_of_neg (by simp [hc])]
  simp [hnewline, hd]

/-- A character at which `splitlines` ends a line. -/
def isLineBoundary (c : Char) : Bool :=
  [0xa, 0xb, 0xc, 0xd, 0x1c, 0x1d, 0x1e, 0x85, 0x2028, 0x2029].contains c.toNat

/-- Every pair of a carriage return and a newline replaced by one newline. -/
def collapseCrLf : List Char → List Char
  | [] => []
  | '\r' :: '\n' :: cs => '\n' :: collapseCrLf cs
  | c :: cs => c :: collapseCrLf cs

/-- The lines of a text; `line` is what was read of the current one, reversed. -/
def breakLines : List Char → List Char → List (List Char)
  | [], [] => []
  | [], c :: line => [(c :: line).reverse]
  | c :: cs, line =>
    if isLineBoundary c then line.reverse :: breakLines cs [] else breakLines cs (c :: line)

/-- `str.splitlines`. -/
def splitLines (s : String) : List String :=
  (breakLines (collapseCrLf s.toList) []).map String.ofList

/-- The universal-newline translation of a file opened for reading text. -/
def universalNewlines (cs : List Char) : List Char :=
  (collapseCrLf cs).map fun c => if c = '\r' then '\n' else c

theorem collapseCrLf_eq_self {cs : List Char} (h : '\r' ∉ cs) : collapseCrLf cs = cs := by
  induction cs with
  | nil => rfl
  | cons c cs ih =>
    simp only [List.mem_cons, not_or] at h
    rw [collapseCrLf, ih h.2]
    rintro - rfl
    exact absurd rfl h.1

/-- A line that does not end in a carriage return, up to its newline. -/
theorem collapseCrLf_line {l : List Char} (hnewline : '\n' ∉ l) (hlast : l.getLast? ≠ some '\r')
    (rest : List Char) : collapseCrLf (l ++ '\n' :: rest) = l ++ '\n' :: collapseCrLf rest := by
  induction l with
  | nil => exact collapseCrLf.eq_3 '\n' rest (by simp)
  | cons c l ih =>
    rw [List.mem_cons, not_or] at hnewline
    rw [List.cons_append, collapseCrLf, ih hnewline.2]
    · rfl
    · intro h
      refine hlast ?_
      rw [List.getLast?_cons, h]
      rfl
    · rintro t rfl h
      cases l with
      | nil => exact hlast rfl
      | cons d l => exact hnewline.2 ((List.cons.inj h).1 ▸ List.mem_cons_self)

theorem universalNewlines_eq_self {cs : List Char} (h : '\r' ∉ cs) : universalNewlines cs = cs := by
  rw [universalNewlines, collapseCrLf_eq_self h]
  refine (List.map_congr_left fun c hc => if_neg ?_).trans (List.map_id cs)
  rintro rfl
  exact h hc

/-- The line that a newline ends, split at the other boundaries. -/
theorem breakLines_append_newline (l acc rest : List Char) :
    breakLines (l ++ '\n' :: rest) acc =
      (l.splitOnP isLineBoundary).modifyHead (acc.reverse ++ ·) ++ breakLines rest [] := by
  induction l generalizing acc with
  | nil => simp [breakLines, isLineBoundary]
  | cons c l ih =>
    rw [List.cons_append, breakLines, List.splitOnP_cons_eq_if_modifyHead]
    by_cases hc : isLineBoundary c = true
    · rw [if_pos hc, if_pos hc, ih]
      cases l.splitOnP isLineBoundary <;> simp
    · rw [if_neg hc, if_neg hc, ih]
      cases l.splitOnP isLineBoundary <;> simp

/-- Lines that are ended by newlines are split at the boundaries inside them. -/
theorem breakLines_lines (lines : List (List Char)) :
    breakLines (lines.flatMap fun l => l ++ ['\n']) [] =
      lines.flatMap fun l => l.splitOnP isLineBoundary := by
  induction lines with
  | nil => rfl
  | cons l lines ih =>
    rw [List.flatMap_cons, List.append_assoc, List.singleton_append, breakLines_append_newline, ih,
      List.flatMap_cons]
    cases l.splitOnP isLineBoundary <;> simp

/-- Lines without boundary characters inside, each ended by a newline, are read back. -/
theorem breakLines_flatMap {lines : List (List Char)}
    (h : ∀ l ∈ lines, ∀ c ∈ l, isLineBoundary c = false) :
    breakLines (lines.flatMap fun l => l ++ ['\n']) [] = lines := by
  have hsingle : ∀ l ∈ lines, l.splitOnP isLineBoundary = [l] := fun l hl =>
    List.splitOnP_eq_singleton (h l hl)
  rw [breakLines_lines, List.flatMap_congr hsingle, List.flatMap_singleton']

theorem collapseCrLf_lines {lines : List (List Char)} (hnewline : ∀ l ∈ lines, '\n' ∉ l)
    (hlast : ∀ l ∈ lines, l.getLast? ≠ some '\r') :
    collapseCrLf (lines.flatMap fun l => l ++ ['\n']) = lines.flatMap fun l => l ++ ['\n'] := by
  induction lines with
  | nil => rfl
  | cons l lines ih =>
    rw [List.forall_mem_cons] at hnewline hlast
    rw [List.flatMap_cons, List.append_assoc, List.singleton_append,
      collapseCrLf_line hnewline.1 hlast.1, ih hnewline.2 hlast.2]

/-! ### Numbers in text -/

/-- Decimal digits with single underscores between them, without the underscores. -/
def groupedDigits : List Char → Option (List Char)
  | [] => none
  | [c] => if isDigit c then some [c] else none
  | c :: '_' :: cs => if isDigit c then (groupedDigits cs).map (c :: ·) else none
  | c :: cs => if isDigit c then (groupedDigits cs).map (c :: ·) else none

/-- An optional sign: whether it is negative, and the rest. -/
def splitSign : List Char → Bool × List Char
  | '-' :: cs => (true, cs)
  | '+' :: cs => (false, cs)
  | cs => (false, cs)

/-- `int` of a string. -/
def parseInt (s : String) : Except Exc ℤ :=
  let (negative, cs) := splitSign (strip s).toList
  match groupedDigits cs with
  | some ds => (intOfDigits ds).map fun n => if negative then -(n : ℤ) else n
  | none => valueError ("invalid literal for int() with base 10: '" ++ s ++ "'")

/-- The exponent part of a float literal. -/
def parseExponent : List Char → Option ℤ
  | [] => some 0
  | e :: cs =>
    if e = 'e' ∨ e = 'E' then
      let (negative, ds) := splitSign cs
      (groupedDigits ds).map fun ds => if negative then -(digitsValue ds : ℤ) else digitsValue ds
    else none

/-- A finite float literal without its sign. -/
def parseDecimal (cs : List Char) : Option ℚ :=
  let isMark := fun c => c == 'e' || c == 'E'
  let mantissa := cs.takeWhile fun c => !isMark c
  let whole := mantissa.takeWhile (· != '.')
  let frac := (mantissa.dropWhile (· != '.')).drop 1
  let digits := fun ds => if ds = [] then some [] else groupedDigits ds
  match digits whole, digits frac, parseExponent (cs.dropWhile fun c => !isMark c) with
  | some ws, some fs, some e =>
    if ws = [] ∧ fs = [] then none
    else some ((digitsValue (ws ++ fs) : ℚ) * (10 : ℚ) ^ (e - fs.length))
  | _, _, _ => none

/-- `float` of a string. -/
def parseFloat (s : String) : Except Exc Float :=
  let (negative, cs) := splitSign (strip s).toList
  let word := String.ofList (cs.map Char.toLower)
  if word = "inf" ∨ word = "infinity" then .ok (if negative then .negInf else .inf)
  else if word = "nan" then .ok .nan
  else
    match parseDecimal cs with
    | some q => .ok (.fin (if negative then -q else q))
    | none => valueError ("could not convert string to float: '" ++ s ++ "'")

/-! ### Paths -/

/-- The components of a path: `PurePosixPath(s).parts` less the root, so without empty components
and single dots. -/
def pathParts (s : String) : List String :=
  ((s.toList.splitOn '/').filter fun part => part ≠ [] && part ≠ ['.']).map String.ofList

/-- `PurePosixPath(s).is_absolute()`. -/
def isAbsolute (s : String) : Bool := s.toList.head? == some '/'

end Py

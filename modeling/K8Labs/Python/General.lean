import K8Labs.Python.Number
import K8Labs.Python.Str
import Mathlib.Data.Int.Log
import Mathlib.Tactic.Ring
import Mathlib.Tactic.Positivity
import Mathlib.Tactic.GCongr
import Mathlib.Tactic.NormNum

/-!
# Numbers that are printed and read back

`format(x, ".15g")`: so many significant digits, without trailing zeros, with an exponent for
numbers that are very large or very small.  `format(x, ".3f")`: so many decimals.

* `parseDecimal_formatMagnitude`: the text denotes the number `rounded` to so many digits.
* `parseFloat_formatFixed`: the text denotes the number rounded to so many decimals.
-/

namespace Py

/-- A positive number rounded to so many significant digits: the digits and the exponent of the
first. -/
def significant (digits : ℕ) (q : ℚ) : ℕ × ℤ :=
  let e := Int.log 10 q
  let m := (roundHalfEven (q * 10 ^ (digits - 1 - e))).toNat
  if m = 10 ^ digits then (10 ^ (digits - 1), e + 1) else (m, e)

/-- Digits without the zeros at the end. -/
def stripZeros (ds : List Char) : List Char := (ds.reverse.dropWhile (· == '0')).reverse

/-- Digits before and after a point, which is left out when nothing stands after it. -/
def withPoint (whole frac : List Char) : List Char := if frac = [] then whole else whole ++ '.' :: frac

/-- The text of an exponent: a sign and at least two digits. -/
def exponentText (e : ℤ) : List Char :=
  let n := natDigits e.natAbs
  'e' :: (if e < 0 then '-' else '+') :: (if n.length < 2 then '0' :: n else n)

/-- Digits of which the first has the given exponent. -/
def digitsText (ds : List Char) (e : ℤ) : List Char :=
  if -4 ≤ e ∧ e < ds.length then
    if 0 ≤ e then withPoint (ds.take (e.toNat + 1)) (stripZeros (ds.drop (e.toNat + 1)))
    else withPoint ['0'] (List.replicate (-e - 1).toNat '0' ++ stripZeros ds)
  else withPoint (ds.take 1) (stripZeros (ds.drop 1)) ++ exponentText e

/-- A number that is not negative, in general format. -/
def formatMagnitude (digits : ℕ) (q : ℚ) : List Char :=
  if q = 0 then ['0']
  else digitsText (natDigits (significant digits q).1) (significant digits q).2

/-- `format(q, f".{digits}g")` of a finite number. -/
def formatGeneral (digits : ℕ) (q : ℚ) : List Char :=
  (if q < 0 then ['-'] else []) ++ formatMagnitude digits |q|

/-- A number rounded to so many significant digits. -/
def rounded (digits : ℕ) (q : ℚ) : ℚ :=
  if q = 0 then 0
  else (significant digits q).1 * 10 ^ ((significant digits q).2 - (digits - 1))

theorem le_roundHalfEven {n : ℤ} {q : ℚ} (h : (n : ℚ) ≤ q) : n ≤ roundHalfEven q := by
  have hfloor : n ≤ ⌊q⌋ := Int.le_floor.2 h
  unfold roundHalfEven
  dsimp only
  split_ifs <;> omega

theorem roundHalfEven_le {n : ℤ} {q : ℚ} (h : q ≤ n) : roundHalfEven q ≤ n := by
  rcases h.lt_or_eq with h | rfl
  · have hfloor : ⌊q⌋ < n := Int.floor_lt.2 h
    unfold roundHalfEven
    dsimp only
    split_ifs <;> omega
  · simp [roundHalfEven]

theorem roundHalfEven_intCast (n : ℤ) : roundHalfEven (n : ℚ) = n :=
  le_antisymm (roundHalfEven_le le_rfl) (le_roundHalfEven le_rfl)

theorem abs_roundHalfEven_sub_le (q : ℚ) : |(roundHalfEven q : ℚ) - q| ≤ 1 / 2 := by
  have h₁ := Int.floor_le q
  have h₂ := Int.lt_floor_add_one q
  rw [abs_le]
  simp only [roundHalfEven]
  split_ifs <;> push_cast <;> constructor <;> linarith

theorem roundHalfEven_mono {p q : ℚ} (h : p ≤ q) : roundHalfEven p ≤ roundHalfEven q := by
  by_contra hlt
  have hstep : (roundHalfEven q : ℚ) + 1 ≤ roundHalfEven p := by
    exact_mod_cast not_le.1 hlt
  have hp := abs_le.1 (abs_roundHalfEven_sub_le p)
  have hq := abs_le.1 (abs_roundHalfEven_sub_le q)
  -- only two equal numbers halfway between integers are left
  have heq : p = q := le_antisymm h (by linarith [hp.2, hq.1])
  exact hlt (heq ▸ le_rfl)

theorem significant_bounds {digits : ℕ} (hdigits : 0 < digits) {q : ℚ} (hq : 0 < q) :
    10 ^ (digits - 1) ≤ (significant digits q).1 ∧ (significant digits q).1 < 10 ^ digits := by
  have hlow : (10 : ℚ) ^ Int.log 10 q ≤ q := Int.zpow_log_le_self (by norm_num) hq
  have hhigh : q < (10 : ℚ) ^ (Int.log 10 q + 1) := Int.lt_zpow_succ_log_self (by norm_num) q
  have hpos : (0 : ℚ) < 10 ^ ((digits : ℤ) - 1 - Int.log 10 q) := zpow_pos (by norm_num) _
  have hscale₁ : ((10 ^ (digits - 1) : ℕ) : ℤ) ≤
      roundHalfEven (q * 10 ^ ((digits : ℤ) - 1 - Int.log 10 q)) := by
    refine le_roundHalfEven ?_
    calc (((10 ^ (digits - 1) : ℕ) : ℤ) : ℚ)
        = (10 : ℚ) ^ Int.log 10 q * 10 ^ ((digits : ℤ) - 1 - Int.log 10 q) := by
          rw [← zpow_add₀ (by norm_num), add_sub_cancel, ← Nat.cast_pred hdigits, zpow_natCast]
          push_cast
          rfl
      _ ≤ _ := by gcongr
  have hscale₂ : roundHalfEven (q * 10 ^ ((digits : ℤ) - 1 - Int.log 10 q)) ≤
      ((10 ^ digits : ℕ) : ℤ) := by
    refine roundHalfEven_le ?_
    calc q * 10 ^ ((digits : ℤ) - 1 - Int.log 10 q)
        ≤ (10 : ℚ) ^ (Int.log 10 q + 1) * 10 ^ ((digits : ℤ) - 1 - Int.log 10 q) := by gcongr
      _ = (((10 ^ digits : ℕ) : ℤ) : ℚ) := by
          rw [← zpow_add₀ (by norm_num), show Int.log 10 q + 1 + ((digits : ℤ) - 1 - Int.log 10 q) =
            (digits : ℤ) by ring, zpow_natCast]
          push_cast
          rfl
  have hpow : 10 ^ (digits - 1) < 10 ^ digits := Nat.pow_lt_pow_right (by omega) (by omega)
  unfold significant
  dsimp only
  split_ifs with h
  · exact ⟨le_refl _, hpow⟩
  · dsimp only
    generalize 10 ^ (digits - 1) = low at *
    generalize 10 ^ digits = high at *
    omega

/-! ### Reading it back -/

theorem groupedDigits_eq {ds : List Char} (h : ∀ c ∈ ds, c.isDigit = true) (hne : ds ≠ []) :
    groupedDigits ds = some ds := by
  have hdigit : ∀ c, c.isDigit = true → isDigit c = true := fun c hc => by
    rw [isDigit, digit?_of_isDigit hc]
    rfl
  induction ds with
  | nil => exact absurd rfl hne
  | cons c ds ih =>
    rw [List.forall_mem_cons] at h
    cases ds with
    | nil => simp [groupedDigits, hdigit c h.1]
    | cons d ds =>
      have hd : d ≠ '_' := by
        rintro rfl
        exact absurd (h.2 '_' List.mem_cons_self) (by decide)
      rw [groupedDigits.eq_def]
      simp [hd, hdigit c h.1, ih h.2 (by simp)]

theorem parseExponent_text (e : ℤ) : parseExponent (exponentText e) = some e := by
  have hds : ∀ ds, ds = natDigits e.natAbs ∨ ds = '0' :: natDigits e.natAbs →
      groupedDigits ds = some ds ∧ digitsValue ds = e.natAbs := by
    rintro ds (rfl | rfl)
    · exact ⟨groupedDigits_eq (fun c => isDigit_of_mem_natDigits) (natDigits_ne_nil _),
        digitsValue_natDigits _⟩
    · refine ⟨groupedDigits_eq (List.forall_mem_cons.2 ⟨by decide,
        fun c => isDigit_of_mem_natDigits⟩) (by simp), ?_⟩
      have hzero : digitsValue ['0'] = 0 := by decide
      rw [← List.singleton_append, digitsValue_append, digitsValue_natDigits, hzero]
      omega
  obtain ⟨ds, hcases, htext⟩ : ∃ ds, (ds = natDigits e.natAbs ∨ ds = '0' :: natDigits e.natAbs) ∧
      exponentText e = 'e' :: (if e < 0 then '-' else '+') :: ds := by
    unfold exponentText
    dsimp only
    split_ifs <;> exact ⟨_, by simp, rfl⟩
  obtain ⟨hgroup, hvalue⟩ := hds ds hcases
  rw [htext, parseExponent, if_pos (.inl rfl)]
  split_ifs with hneg
  · simp only [splitSign, hgroup, Option.map_some, if_true, hvalue]
    congr 1
    omega
  · simp only [splitSign, hgroup, Option.map_some, hvalue]
    simp
    omega


/-- Digits with a point among them, and an exponent or none. -/
theorem parseDecimal_text {whole frac x : List Char} {e : ℤ}
    (hwhole : ∀ c ∈ whole, c.isDigit = true) (hne : whole ≠ [])
    (hfrac : ∀ c ∈ frac, c.isDigit = true) (hx : parseExponent x = some e)
    (hstart : x = [] ∨ x.head? = some 'e') :
    parseDecimal (withPoint whole frac ++ x) =
      some ((digitsValue (whole ++ frac) : ℚ) * 10 ^ (e - frac.length)) := by
  have hmantissa : ∀ c ∈ withPoint whole frac, (!(c == 'e' || c == 'E')) = true := by
    have hdigit : ∀ c, c.isDigit = true → (!(c == 'e' || c == 'E')) = true := fun c hc => by
      simp [(ne_of_isDigit hc (d := 'e') (by decide)).symm,
        (ne_of_isDigit hc (d := 'E') (by decide)).symm]
    unfold withPoint
    split_ifs
    · exact fun c hc => hdigit c (hwhole c hc)
    · intro c hc
      rcases List.mem_append.1 hc with hc | hc
      · exact hdigit c (hwhole c hc)
      · rcases List.mem_cons.1 hc with rfl | hc
        · decide
        · exact hdigit c (hfrac c hc)
  -- the three cuts of the parser: at the exponent, at the point, and into groups of digits
  have hexp : x.takeWhile (fun c => !(c == 'e' || c == 'E')) = [] ∧
      x.dropWhile (fun c => !(c == 'e' || c == 'E')) = x := by
    cases x with
    | nil => simp
    | cons c x =>
      obtain rfl : c = 'e' := by simpa using hstart
      simp
  have hpoint : (withPoint whole frac).takeWhile (· != '.') = whole ∧
      ((withPoint whole frac).dropWhile (· != '.')).drop 1 = frac := by
    have hnot : ∀ c ∈ whole, (c != '.') = true := fun c hc => by
      simp [(ne_of_isDigit (hwhole c hc) (d := '.') (by decide)).symm]
    unfold withPoint
    split_ifs with hnil
    · rw [List.takeWhile_eq_self_iff.2 hnot, List.dropWhile_eq_nil_iff.2 hnot, hnil]
      exact ⟨rfl, rfl⟩
    · rw [List.takeWhile_append_of_pos hnot, List.dropWhile_append_of_pos hnot]
      simp
  have hdigits : (if frac = [] then some [] else groupedDigits frac) = some frac := by
    split_ifs with hnil
    · rw [hnil]
    · exact groupedDigits_eq hfrac hnil
  unfold parseDecimal
  simp only [List.takeWhile_append_of_pos hmantissa, List.dropWhile_append_of_pos hmantissa, hexp.1,
    hexp.2, List.append_nil, hpoint.1, hpoint.2, hdigits, hx,
    groupedDigits_eq hwhole hne, hne, false_and, if_false]

theorem digitsValue_stripZeros (ds : List Char) : ∃ k, ds.length = (stripZeros ds).length + k ∧
    digitsValue ds = digitsValue (stripZeros ds) * 10 ^ k := by
  refine ⟨(ds.reverse.takeWhile (· == '0')).length, ?_, ?_⟩
  · have := congrArg List.length (List.takeWhile_append_dropWhile (p := (· == '0')) (l := ds.reverse))
    rw [List.length_append, List.length_reverse] at this
    rw [stripZeros, List.length_reverse]
    omega
  · have hsplit : ds = stripZeros ds ++
        List.replicate (ds.reverse.takeWhile (· == '0')).length '0' := by
      have hzeros : ds.reverse.takeWhile (· == '0') =
          List.replicate (ds.reverse.takeWhile (· == '0')).length '0' :=
        List.eq_replicate_of_mem fun c hc => by simpa using List.mem_takeWhile_imp hc
      have := congrArg List.reverse
        (List.takeWhile_append_dropWhile (p := (· == '0')) (l := ds.reverse))
      rw [List.reverse_append, List.reverse_reverse, hzeros, List.reverse_replicate] at this
      exact this.symm
    conv_lhs => rw [hsplit, digitsValue_append, digitsValue_replicate_zero, List.length_replicate]
    rfl

theorem isDigit_of_mem_stripZeros {ds : List Char} (h : ∀ c ∈ ds, c.isDigit = true) :
    ∀ c ∈ stripZeros ds, c.isDigit = true := fun c hc =>
  h c (by
    rw [stripZeros, List.mem_reverse] at hc
    exact List.mem_reverse.1 ((List.dropWhile_sublist _).subset hc))

theorem stripZeros_scaled (w t : List Char) (e : ℤ) :
    (digitsValue (w ++ stripZeros t) : ℚ) * 10 ^ (e - (stripZeros t).length) =
      digitsValue (w ++ t) * 10 ^ (e - t.length) := by
  obtain ⟨k, hlen, hvalue⟩ := digitsValue_stripZeros t
  have hsum : digitsValue (w ++ t) = digitsValue (w ++ stripZeros t) * 10 ^ k := by
    rw [digitsValue_append, digitsValue_append, hvalue, hlen, pow_add]
    ring
  rw [hsum, hlen]
  push_cast
  rw [mul_assoc, ← zpow_natCast (10 : ℚ) k, ← zpow_add₀ (by norm_num)]
  congr 2
  ring

theorem length_significant {digits : ℕ} (hdigits : 0 < digits) {q : ℚ} (hq : 0 < q) :
    (natDigits (significant digits q).1).length = digits := by
  obtain ⟨hlow, hhigh⟩ := significant_bounds hdigits hq
  refine le_antisymm ((Nat.length_toDigits_le_iff (by omega) hdigits).2 hhigh) ?_
  by_contra hlt
  rw [not_le] at hlt
  rcases Nat.eq_zero_or_pos (digits - 1) with hone | hpos
  · have := List.length_pos_iff.2 (natDigits_ne_nil (significant digits q).1)
    omega
  · have := (Nat.length_toDigits_le_iff (b := 10) (by omega) hpos).1 (Nat.le_pred_of_lt hlt)
    omega

/-- Digits without and with an exponent denote the same number. -/
theorem parseDecimal_digitsText {ds : List Char} (hds : ∀ c ∈ ds, c.isDigit = true) (hne : ds ≠ [])
    (e : ℤ) : parseDecimal (digitsText ds e) =
      some ((digitsValue ds : ℚ) * 10 ^ (e - (ds.length - 1))) := by
  have hlen : 0 < ds.length := List.length_pos_iff.2 hne
  have htake : ∀ n, ∀ c ∈ ds.take n, c.isDigit = true := fun n c hc => hds c (List.mem_of_mem_take hc)
  have hdrop : ∀ n, ∀ c ∈ stripZeros (ds.drop n), c.isDigit = true := fun n =>
    isDigit_of_mem_stripZeros fun c hc => hds c (List.mem_of_mem_drop hc)
  have htakene : ∀ n, ds.take (n + 1) ≠ [] := fun n => by simp [hne]
  unfold digitsText
  split_ifs with hfixed hpos
  · have := parseDecimal_text (htake (e.toNat + 1)) (htakene _) (hdrop (e.toNat + 1))
      (x := []) rfl (.inl rfl)
    rw [List.append_nil, stripZeros_scaled, List.take_append_drop] at this
    rw [this, List.length_drop]
    congr 3
    omega
  · have hfrac : ∀ c ∈ List.replicate (-e - 1).toNat '0' ++ stripZeros ds, c.isDigit = true := by
      intro c hc
      rcases List.mem_append.1 hc with hc | hc
      · rw [List.eq_of_mem_replicate hc]
        decide
      · exact isDigit_of_mem_stripZeros hds c hc
    have := @parseDecimal_text ['0'] _ [] _ (by simp) (by simp) hfrac rfl (.inl rfl)
    have hzeros : ['0'] ++ List.replicate (-e - 1).toNat '0' =
        List.replicate ((-e - 1).toNat + 1) '0' := rfl
    rw [List.append_nil, ← List.append_assoc, hzeros, List.length_append, List.length_replicate,
      Nat.cast_add, ← sub_sub, stripZeros_scaled, digitsValue_append, digitsValue_replicate_zero,
      zero_mul, zero_add] at this
    rw [this]
    congr 3
    omega
  · have := parseDecimal_text (htake 1) (htakene 0) (hdrop 1) (parseExponent_text e) (.inr rfl)
    rw [stripZeros_scaled, List.take_append_drop] at this
    rw [this, List.length_drop]
    congr 3
    omega

/-- The text of a number denotes the number rounded. -/
theorem parseDecimal_formatMagnitude {digits : ℕ} (hdigits : 0 < digits) {q : ℚ} (hq : 0 ≤ q) :
    parseDecimal (formatMagnitude digits q) = some (rounded digits q) := by
  unfold formatMagnitude rounded
  split_ifs with hzero
  · have := @parseDecimal_text ['0'] [] [] _ (by simp) (by simp) (by simp) rfl (.inl rfl)
    have hvalue : digitsValue (['0'] ++ []) = 0 := by decide
    rw [hvalue, Nat.cast_zero, zero_mul] at this
    exact this
  · have hpos : 0 < q := lt_of_le_of_ne hq (Ne.symm hzero)
    rw [parseDecimal_digitsText (fun c => isDigit_of_mem_natDigits) (natDigits_ne_nil _),
      length_significant hdigits hpos, digitsValue_natDigits]

/-- A character of a number in general format. -/
def IsNumberChar (c : Char) : Prop := c.isDigit = true ∨ c ∈ ['.', 'e', '+', '-']

theorem isNumberChar_withPoint {whole frac : List Char} (hwhole : ∀ c ∈ whole, c.isDigit = true)
    (hfrac : ∀ c ∈ frac, c.isDigit = true) : ∀ c ∈ withPoint whole frac, IsNumberChar c := by
  unfold withPoint
  split_ifs
  · exact fun c hc => .inl (hwhole c hc)
  · intro c hc
    rcases List.mem_append.1 hc with hc | hc
    · exact .inl (hwhole c hc)
    · rcases List.mem_cons.1 hc with rfl | hc
      · exact .inr (by simp)
      · exact .inl (hfrac c hc)

theorem isNumberChar_exponentText (e : ℤ) : ∀ c ∈ exponentText e, IsNumberChar c := by
  have hds : ∀ c ∈ natDigits e.natAbs, IsNumberChar c := fun c hc => .inl (isDigit_of_mem_natDigits hc)
  unfold exponentText
  dsimp only
  rw [List.forall_mem_cons, List.forall_mem_cons]
  refine ⟨.inr (by simp), ?_, ?_⟩
  · split_ifs <;> exact .inr (by simp)
  · split_ifs
    · exact List.forall_mem_cons.2 ⟨.inl (by decide), hds⟩
    · exact hds

/-- A number begins with a digit. -/
theorem head_withPoint {whole frac : List Char} (hwhole : ∀ c ∈ whole, c.isDigit = true)
    (hne : whole ≠ []) (x : List Char) :
    ∃ c cs, withPoint whole frac ++ x = c :: cs ∧ c.isDigit = true := by
  obtain ⟨c, whole, rfl⟩ := List.exists_cons_of_ne_nil hne
  have hc := hwhole c List.mem_cons_self
  unfold withPoint
  split_ifs
  · exact ⟨c, whole ++ x, rfl, hc⟩
  · exact ⟨c, _, rfl, hc⟩

/-- The shape of digits with an exponent. -/
theorem digitsText_shape {ds : List Char} (hds : ∀ c ∈ ds, c.isDigit = true) (hne : ds ≠ [])
    (e : ℤ) : ∃ whole frac x, digitsText ds e = withPoint whole frac ++ x ∧ whole ≠ [] ∧
      (∀ c ∈ whole, c.isDigit = true) ∧ (∀ c ∈ frac, c.isDigit = true) ∧
        (x = [] ∨ ∃ e, x = exponentText e) := by
  have htake : ∀ n, ∀ c ∈ ds.take n, c.isDigit = true := fun n c hc => hds c (List.mem_of_mem_take hc)
  have hdrop : ∀ n, ∀ c ∈ stripZeros (ds.drop n), c.isDigit = true := fun n =>
    isDigit_of_mem_stripZeros fun c hc => hds c (List.mem_of_mem_drop hc)
  unfold digitsText
  split_ifs with hfixed hpos
  · exact ⟨_, _, [], (List.append_nil _).symm, by simp [hne], htake _, hdrop _, .inl rfl⟩
  · refine ⟨_, _, [], (List.append_nil _).symm, by simp, by simp, fun c hc => ?_, .inl rfl⟩
    rcases List.mem_append.1 hc with hc | hc
    · rw [List.eq_of_mem_replicate hc]
      decide
    · exact isDigit_of_mem_stripZeros hds c hc
  · exact ⟨_, _, _, rfl, by simp [hne], htake 1, hdrop 1, .inr ⟨_, rfl⟩⟩

/-- The shape of a number in general format. -/
theorem formatMagnitude_shape (digits : ℕ) (q : ℚ) : ∃ whole frac x,
    formatMagnitude digits q = withPoint whole frac ++ x ∧ whole ≠ [] ∧
      (∀ c ∈ whole, c.isDigit = true) ∧ (∀ c ∈ frac, c.isDigit = true) ∧
        (x = [] ∨ ∃ e, x = exponentText e) := by
  unfold formatMagnitude
  split_ifs with hzero
  · exact ⟨['0'], [], [], rfl, by simp, by simp, by simp, .inl rfl⟩
  · exact digitsText_shape (fun c => isDigit_of_mem_natDigits) (natDigits_ne_nil _) _

theorem isNumberChar_of_shape {whole frac x : List Char} (hwhole : ∀ c ∈ whole, c.isDigit = true)
    (hfrac : ∀ c ∈ frac, c.isDigit = true) (hx : x = [] ∨ ∃ e, x = exponentText e) :
    ∀ c ∈ withPoint whole frac ++ x, IsNumberChar c := by
  intro c hc
  rcases List.mem_append.1 hc with hc | hc
  · exact isNumberChar_withPoint hwhole hfrac c hc
  · rcases hx with rfl | ⟨e, rfl⟩
    · cases hc
    · exact isNumberChar_exponentText e c hc

theorem isNumberChar_formatMagnitude (digits : ℕ) (q : ℚ) :
    ∀ c ∈ formatMagnitude digits q, IsNumberChar c := by
  obtain ⟨whole, frac, x, htext, -, hwhole, hfrac, hx⟩ := formatMagnitude_shape digits q
  rw [htext]
  exact isNumberChar_of_shape hwhole hfrac hx

theorem isSpace_of_isNumberChar {c : Char} (h : IsNumberChar c) : isSpace c = false := by
  rcases h with h | h
  · exact isSpace_of_isDigit h
  · simp only [List.mem_cons, List.not_mem_nil, or_false] at h
    rcases h with rfl | rfl | rfl | rfl <;> rfl

/-- A number without a sign: its first character is a digit. -/
theorem parseFloat_of_isNumberChar {c : Char} {cs : List Char} {q : ℚ} (hc : c.isDigit = true)
    (hcs : ∀ c' ∈ c :: cs, IsNumberChar c') (hq : parseDecimal (c :: cs) = some q) :
    parseFloat (String.ofList (c :: cs)) = .ok (.fin q) := by
  have hsign : splitSign (c :: cs) = (false, c :: cs) := by
    unfold splitSign
    split
    · next heq => cases heq; exact absurd hc (by decide)
    · next heq => cases heq; exact absurd hc (by decide)
    · rfl
  have hlower : c.toLower.isDigit = true :=
    forall_digit (P := fun c => c.toLower.isDigit = true) (by decide) hc
  have hword : ∀ d word, d.isDigit = false →
      String.ofList ((c :: cs).map Char.toLower) ≠ String.ofList (d :: word) := by
    intro d word hd heq
    rw [String.ofList_inj, List.map_cons] at heq
    rw [(List.cons.inj heq).1, hd] at hlower
    cases hlower
  unfold parseFloat
  rw [strip_eq_self fun c' hc' => isSpace_of_isNumberChar (hcs c' hc'), String.toList_ofList, hsign]
  dsimp only
  rw [if_neg, if_neg, hq]
  · rfl
  · exact hword 'n' ['a', 'n'] (by decide)
  · rw [not_or]
    exact ⟨hword 'i' ['n', 'f'] (by decide), hword 'i' ['n', 'f', 'i', 'n', 'i', 't', 'y'] (by decide)⟩

/-- **A number in general format is read back rounded.** -/
theorem parseFloat_formatMagnitude {digits : ℕ} (hdigits : 0 < digits) {q : ℚ} (hq : 0 ≤ q) :
    parseFloat (String.ofList (formatMagnitude digits q)) = .ok (.fin (rounded digits q)) := by
  obtain ⟨whole, frac, x, htext, hne, hwhole, -, -⟩ := formatMagnitude_shape digits q
  obtain ⟨c, cs, hcons, hc⟩ := @head_withPoint whole frac hwhole hne x
  have hparse := parseDecimal_formatMagnitude hdigits hq
  have hchars := isNumberChar_formatMagnitude digits q
  rw [htext, hcons] at hparse hchars ⊢
  exact parseFloat_of_isNumberChar hc hchars hparse

/-! ### Fixed decimals -/

/-- The text with a number of decimals: a sign, digits, a point, digits; together they denote the
rounded number. -/
theorem formatFixed_toList {digits : ℕ} (hdigits : digits ≠ 0) (q : ℚ) :
    ∃ (n : ℕ) (ds : List Char), ds.length = digits ∧ (∀ c ∈ ds, c.isDigit = true) ∧
      (formatFixed digits q).toList =
        (if q < 0 then ['-'] else []) ++ (natDigits n ++ '.' :: ds) ∧
      (digitsValue (natDigits n ++ ds) : ℤ) = roundHalfEven (|q| * 10 ^ digits) := by
  have hnonneg : 0 ≤ roundHalfEven (|q| * 10 ^ digits) := le_roundHalfEven (by positivity)
  obtain ⟨N, hN⟩ : ∃ N : ℕ, roundHalfEven (|q| * 10 ^ digits) = N :=
    ⟨_, (Int.toNat_of_nonneg hnonneg).symm⟩
  set k := natDigits (N % 10 ^ digits) with hk
  have hklen : k.length ≤ digits :=
    (Nat.length_toDigits_le_iff (by omega) (by omega)).2 (Nat.mod_lt _ (by positivity))
  have hlen : (toString (N % 10 ^ digits)).length = k.length := by
    rw [← String.length_toList, toList_toString]
  set ds := List.replicate (digits - k.length) '0' ++ k with hds
  have hdslen : ds.length = digits := by
    rw [hds, List.length_append, List.length_replicate]
    omega
  refine ⟨N / 10 ^ digits, ds, hdslen, ?_, ?_, ?_⟩
  · intro c hc
    rcases List.mem_append.1 hc with hc | hc
    · rw [List.eq_of_mem_replicate hc]
      rfl
    · exact isDigit_of_mem_natDigits hc
  · rw [formatFixed, hN, Int.toNat_natCast]
    simp only [hlen, if_neg hdigits, String.toList_append, toList_toString,
      String.toList_ofList, ← hk]
    split_ifs <;> simp [hds]
  · rw [hN, digitsValue_append, hdslen, digitsValue_natDigits, hds, digitsValue_append,
      digitsValue_replicate_zero, hk, digitsValue_natDigits, zero_mul, zero_add]
    exact_mod_cast Nat.div_add_mod' N (10 ^ digits)

/-- **A number with fixed decimals is read back rounded.** -/
theorem parseFloat_formatFixed {digits : ℕ} (hdigits : digits ≠ 0) {q : ℚ} (hq : 0 ≤ q) :
    parseFloat (formatFixed digits q) =
      .ok (.fin ((roundHalfEven (q * 10 ^ digits) : ℚ) / 10 ^ digits)) := by
  obtain ⟨n, ds, hlen, hds, htext, hvalue⟩ := formatFixed_toList hdigits q
  rw [if_neg (not_lt.2 hq), List.nil_append] at htext
  rw [abs_of_nonneg hq] at hvalue
  have hne : ds ≠ [] := by
    rintro rfl
    exact hdigits hlen.symm
  have hwhole : ∀ c ∈ natDigits n, c.isDigit = true := fun c => isDigit_of_mem_natDigits
  have hpoint : natDigits n ++ '.' :: ds = withPoint (natDigits n) ds ++ [] := by
    rw [withPoint, if_neg hne, List.append_nil]
  have hparse : parseDecimal (natDigits n ++ '.' :: ds) =
      some ((roundHalfEven (q * 10 ^ digits) : ℚ) / 10 ^ digits) := by
    rw [hpoint, parseDecimal_text hwhole (natDigits_ne_nil n) hds (e := 0) rfl (.inl rfl), ← hvalue,
      hlen, zero_sub, zpow_neg, zpow_natCast, ← div_eq_mul_inv, Int.cast_natCast]
  obtain ⟨c, cs, hcons, hc⟩ := @head_withPoint (natDigits n) ds hwhole (natDigits_ne_nil n) []
  rw [← hpoint] at hcons
  have hchars : ∀ c' ∈ c :: cs, IsNumberChar c' := by
    rw [← hcons, hpoint, List.append_nil]
    exact isNumberChar_withPoint hwhole hds
  rw [← String.ofList_toList (s := formatFixed digits q), htext, hcons]
  rw [hcons] at hparse
  exact parseFloat_of_isNumberChar hc hchars hparse

end Py

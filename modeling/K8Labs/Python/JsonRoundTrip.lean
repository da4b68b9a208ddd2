import K8Labs.Python.Dict
import K8Labs.Python.General
import K8Labs.Python.Json
import Mathlib.Data.Nat.Prime.Basic
import Mathlib.Tactic.Ring

/-!
# Reading back what `json.dumps` wrote

`loads_dumps`: the text of a document is read back as the same document, up to the order of the
keys of its dictionaries.  The document must be `Representable`: its keys are distinct strings, it
has no NaN, and its floats are decimal fractions.

The scanner is followed along the encoder: strings (`scanString_escape`), numbers
(`scanScalar_encodeInt`, `scanScalar_floatText`), and then, by induction on the number of nested
containers that are allowed, whole values (`scanOnce_encode`).
-/

namespace Py

namespace Json

/-! ### Strings -/

theorem hexDigit?_digitChar : ∀ n < 16, hexDigit? (Nat.digitChar n) = some n := by decide

theorem hex4?_hexEscape {n : ℕ} (hn : n < 65536) (rest : List Char) :
    hex4? ((hexEscape n).drop 2 ++ rest) = some (n, rest) := by
  have h₁ := hexDigit?_digitChar (n / 4096) (by omega)
  have h₂ := hexDigit?_digitChar (n / 256 % 16) (by omega)
  have h₃ := hexDigit?_digitChar (n / 16 % 16) (by omega)
  have h₄ := hexDigit?_digitChar (n % 16) (by omega)
  simp only [hexEscape, List.map_cons, List.map_nil, List.drop_succ_cons, List.drop_zero,
    List.cons_append, List.nil_append, hex4?, h₁, h₂, h₃, h₄, Option.some.injEq, Prod.mk.injEq,
    and_true]
  omega

theorem hexEscape_append (n : ℕ) (rest : List Char) :
    hexEscape n ++ rest = '\\' :: 'u' :: ((hexEscape n).drop 2 ++ rest) := rfl

/-- The code point of a character is not a surrogate. -/
theorem toNat_valid (c : Char) : c.toNat < 0xd800 ∨ 0xdfff < c.toNat ∧ c.toNat < 0x110000 := c.valid

/-- The characters that have a short escape, with its letter. -/
def shortEscapes : List (Char × Char) :=
  [('"', '"'), ('\\', '\\'), ('\n', 'n'), ('\r', 'r'), ('\t', 't'), (Char.ofNat 12, 'f'),
    (Char.ofNat 8, 'b')]

/-- What a character is escaped to: a short escape, itself, or one or two escapes of code units. -/
inductive Escapes (c : Char) : List Char → Prop where
  | short {d : Char} (h : (c, d) ∈ shortEscapes) : Escapes c ['\\', d]
  | plain (hquote : c ≠ '"') (hslash : c ≠ '\\') (hspace : 32 ≤ c.toNat) (hdel : c.toNat < 127) :
      Escapes c [c]
  | unit (h : c.toNat < 0x10000) : Escapes c (hexEscape c.toNat)
  | pair (h : 0x10000 ≤ c.toNat) : Escapes c
      (hexEscape (0xd800 + (c.toNat - 0x10000) / 0x400) ++
        hexEscape (0xdc00 + (c.toNat - 0x10000) % 0x400))

theorem ofNat_of_toNat {c : Char} {n : ℕ} (h : c.toNat = n) : Char.ofNat n = c :=
  h ▸ Char.ofNat_toNat c

theorem escapes_escapeChar (c : Char) : Escapes c (escapeChar c) := by
  unfold escapeChar
  by_cases hquote : c = '"'
  · rw [if_pos hquote]
    exact .short (by simp [shortEscapes, hquote])
  by_cases hslash : c = '\\'
  · rw [if_neg hquote, if_pos hslash]
    exact .short (by simp [shortEscapes, hslash])
  rw [if_neg hquote, if_neg hslash]
  split
  · next h => exact .short (by simp [shortEscapes, h])
  split
  · next h => exact .short (by simp [shortEscapes, h])
  split
  · next h => exact .short (by simp [shortEscapes, h])
  split
  · next h => exact .short (by simp [shortEscapes, ← ofNat_of_toNat h])
  split
  · next h => exact .short (by simp [shortEscapes, ← ofNat_of_toNat h])
  split
  · next h => exact .plain hquote hslash h.1 h.2
  split
  · next h => exact .unit h
  · next h => exact .pair (not_lt.1 h)

/-- Every short escape is read back. -/
theorem nextChar_short : ∀ p ∈ shortEscapes, ∀ rest,
    nextChar ('\\' :: p.2 :: rest) = .ok (some p.1, rest) := by
  simp only [shortEscapes, List.forall_mem_cons, List.not_mem_nil, false_implies, implies_true,
    and_true]
  exact ⟨fun _ => rfl, fun _ => rfl, fun _ => rfl, fun _ => rfl, fun _ => rfl, fun _ => rfl,
    fun _ => rfl⟩

theorem Escapes.nextChar {c : Char} {text : List Char} (h : Escapes c text) (rest : List Char) :
    nextChar (text ++ rest) = .ok (some c, rest) := by
  cases h with
  | short h => exact nextChar_short _ h rest
  | plain hquote hslash hspace _ =>
    rw [List.singleton_append, Json.nextChar, if_neg hquote, if_neg hslash, if_neg (by omega)]
  | unit h =>
    -- one escape: the character is below the surrogates or above them
    have hv := toNat_valid c
    rw [hexEscape_append]
    have hun : unescape ('u' :: ((hexEscape c.toNat).drop 2 ++ rest)) = .ok (c, rest) := by
      rw [unescape, hex4?_hexEscape h]
      simp only
      rw [if_neg (by omega), if_neg (by omega), ofNat_of_toNat rfl]
    rw [Json.nextChar, if_neg (by decide), if_pos rfl, hun]
    rfl
  | pair h =>
    -- a pair of surrogates
    have hv := toNat_valid c
    have hhi : 0xd800 + (c.toNat - 0x10000) / 0x400 < 65536 := by omega
    have hlo : 0xdc00 + (c.toNat - 0x10000) % 0x400 < 65536 := by omega
    have hlow : lowSurrogate? (hexEscape (0xdc00 + (c.toNat - 0x10000) % 0x400) ++ rest) =
        some (0xdc00 + (c.toNat - 0x10000) % 0x400, rest) := by
      rw [hexEscape_append, lowSurrogate?, hex4?_hexEscape hlo]
      simp only
      rw [if_pos (by omega)]
    rw [List.append_assoc, hexEscape_append]
    have hun : unescape ('u' :: ((hexEscape (0xd800 + (c.toNat - 0x10000) / 0x400)).drop 2 ++
        (hexEscape (0xdc00 + (c.toNat - 0x10000) % 0x400) ++ rest))) = .ok (c, rest) := by
      rw [unescape, hex4?_hexEscape hhi]
      simp only
      rw [if_pos (by omega), hlow]
      simp only
      rw [ofNat_of_toNat (c := c) (by omega)]
    rw [Json.nextChar, if_neg (by decide), if_pos rfl, hun]
    rfl

/-- Every escaped character is read back. -/
theorem nextChar_escapeChar (c : Char) (rest : List Char) :
    nextChar (escapeChar c ++ rest) = .ok (some c, rest) := (escapes_escapeChar c).nextChar rest

/-- A string is read back up to its closing quote. -/
theorem scanString_escape (s rest : List Char) {n : ℕ} (hn : s.length < n) :
    scanString n (s.flatMap escapeChar ++ '"' :: rest) = .ok (s, rest) := by
  induction s generalizing n with
  | nil =>
    obtain ⟨m, rfl⟩ : ∃ m, n = m + 1 := ⟨n - 1, by omega⟩
    rfl
  | cons c s ih =>
    obtain ⟨m, rfl⟩ : ∃ m, n = m + 1 := ⟨n - 1, by omega⟩
    rw [List.flatMap_cons, List.append_assoc, scanString, nextChar_escapeChar]
    simp only [Except.bind]
    rw [ih (by simpa using hn)]
    rfl

theorem Escapes.ne_nil {c : Char} {text : List Char} (h : Escapes c text) : text ≠ [] := by
  cases h <;> simp [hexEscape]

theorem length_le_flatMap_escapeChar (s : List Char) :
    s.length ≤ (s.flatMap escapeChar).length := by
  induction s with
  | nil => simp
  | cons c s ih =>
    have := List.length_pos_iff.2 (escapes_escapeChar c).ne_nil
    rw [List.flatMap_cons, List.length_append, List.length_cons]
    omega

theorem scanString_encodeString (s : String) (rest : List Char) :
    scanString ((s.toList.flatMap escapeChar ++ '"' :: rest).length)
      (s.toList.flatMap escapeChar ++ '"' :: rest) = .ok (s.toList, rest) := by
  refine scanString_escape s.toList rest ?_
  have := length_le_flatMap_escapeChar s.toList
  rw [List.length_append, List.length_cons]
  omega

/-! ### Numbers -/

/-- The text after a number: it does not go on with a digit, a point or an exponent. -/
def Delimited (rest : List Char) : Prop :=
  ∀ c, rest.head? = some c → c.isDigit = false ∧ c ≠ '.' ∧ c ≠ 'e' ∧ c ≠ 'E'

theorem span_isDigit {ds rest : List Char} (hds : ∀ c ∈ ds, c.isDigit = true)
    (hrest : ∀ c, rest.head? = some c → c.isDigit = false) :
    (ds ++ rest).takeWhile Char.isDigit = ds ∧ (ds ++ rest).dropWhile Char.isDigit = rest := by
  rw [List.takeWhile_append_of_pos hds, List.dropWhile_append_of_pos hds]
  cases rest with
  | nil => simp
  | cons c rest => simp [hrest c rfl]

theorem fraction_delimited {rest : List Char} (h : Delimited rest) : fraction rest = ([], rest) := by
  unfold fraction
  split
  · exact absurd rfl (h '.' rfl).2.1
  · rfl

theorem exponent_delimited {rest : List Char} (h : Delimited rest) :
    exponent rest = (none, rest) := by
  cases rest with
  | nil => rfl
  | cons c rest =>
    have hc := h c rfl
    rw [exponent, if_neg (by simp [hc.2.2.1, hc.2.2.2])]

/-- The digits before a point or a delimiter are read whole. -/
theorem whole_natDigits (n : ℕ) {rest : List Char}
    (hrest : ∀ c, rest.head? = some c → c.isDigit = false) :
    (if (natDigits n ++ rest).head? = some '0' then ['0']
      else (natDigits n ++ rest).takeWhile Char.isDigit) = natDigits n := by
  have hspan := span_isDigit (fun c hc => isDigit_of_mem_natDigits (n := n) hc) hrest
  rw [List.head?_append_of_ne_nil _ (natDigits_ne_nil n), hspan.1]
  rcases Nat.eq_zero_or_pos n with rfl | hn
  · rfl
  · rw [if_neg (head_natDigits hn)]

theorem scanMagnitude_natDigits {n : ℕ} (hlen : (natDigits n).length ≤ maxIntDigits)
    {rest : List Char} (h : Delimited rest) :
    scanMagnitude (natDigits n ++ rest) = .ok (.inl n, rest) := by
  have hint : intOfDigits (natDigits n) = .ok n := by
    rw [intOfDigits, if_neg (by omega), digitsValue_natDigits]
  simp only [scanMagnitude, whole_natDigits n fun c hc => (h c hc).1, natDigits_ne_nil, if_false,
    List.drop_left, fraction_delimited h, exponent_delimited h, hint]
  rfl

theorem scanMagnitude_decimal (n : ℕ) {ds rest : List Char} (hne : ds ≠ [])
    (hds : ∀ c ∈ ds, c.isDigit = true) (h : Delimited rest) :
    scanMagnitude (natDigits n ++ '.' :: (ds ++ rest)) =
      .ok (.inr ((digitsValue (natDigits n ++ ds) : ℚ) * (10 : ℚ) ^ (0 - ds.length : ℤ)), rest) := by
  have hspan := span_isDigit hds fun c hc => (h c hc).1
  have hfrac : fraction ('.' :: (ds ++ rest)) = (ds, rest) := by
    rw [fraction, hspan.1, hspan.2, if_neg hne]
  have hpoint : ∀ c, ('.' :: (ds ++ rest)).head? = some c → c.isDigit = false := by
    rintro c hc
    cases hc
    rfl
  obtain ⟨d, ds', rfl⟩ : ∃ d ds', ds = d :: ds' := by
    cases ds with
    | nil => exact absurd rfl hne
    | cons d ds' => exact ⟨d, ds', rfl⟩
  simp only [scanMagnitude, whole_natDigits n hpoint, natDigits_ne_nil, if_false, List.drop_left,
    hfrac, exponent_delimited h, Option.getD_none]

/-! ### Floats -/

/-- A finite decimal expansion. -/
def IsDecimal (q : ℚ) : Prop := ∃ (n : ℤ) (k : ℕ), q = n / 10 ^ k

/-- A divisor of a power of ten divides the power that its size allows. -/
theorem dvd_ten_pow_log {d k : ℕ} (hd : d ∣ 10 ^ k) : d ∣ 10 ^ Nat.log 2 d := by
  have hd0 : d ≠ 0 := fun h0 => by
    rw [h0, zero_dvd_iff] at hd
    exact absurd hd (by positivity)
  rw [show 10 = 2 * 5 from rfl, mul_pow] at hd
  obtain ⟨a, b, ha, hb, rfl⟩ := Nat.dvd_mul.1 hd
  obtain ⟨i, -, rfl⟩ := (Nat.dvd_prime_pow Nat.prime_two).1 ha
  obtain ⟨j, -, rfl⟩ := (Nat.dvd_prime_pow Nat.prime_five).1 hb
  have hi : i ≤ Nat.log 2 (2 ^ i * 5 ^ j) :=
    Nat.le_log_of_pow_le (by omega) (Nat.le_mul_of_pos_right _ (by positivity))
  have hj : j ≤ Nat.log 2 (2 ^ i * 5 ^ j) :=
    Nat.le_log_of_pow_le (by omega) (calc
      2 ^ j ≤ 5 ^ j := Nat.pow_le_pow_left (by omega) j
      _ ≤ 2 ^ i * 5 ^ j := Nat.le_mul_of_pos_left _ (by positivity))
  rw [show 10 = 2 * 5 from rfl, mul_pow]
  exact mul_dvd_mul (pow_dvd_pow 2 hi) (pow_dvd_pow 5 hj)

theorem IsDecimal.den_dvd {q : ℚ} (h : IsDecimal q) : ∃ k, q.den ∣ 10 ^ k := by
  obtain ⟨n, k, rfl⟩ := h
  refine ⟨k, ?_⟩
  have := Rat.den_dvd n (10 ^ k : ℤ)
  rw [Rat.divInt_eq_div] at this
  push_cast at this
  exact_mod_cast this

/-- The chosen number of decimals makes the float an integer. -/
theorem IsDecimal.exists_int {q : ℚ} (h : IsDecimal q) {d : ℕ} (hd : decimals q ≤ d) :
    ∃ n : ℤ, q * 10 ^ d = n := by
  obtain ⟨k, hk⟩ := h.den_dvd
  have hint : ∀ k, q.den ∣ 10 ^ k → ∃ n : ℤ, q * 10 ^ k = n := by
    rintro k ⟨c, hc⟩
    refine ⟨q.num * c, ?_⟩
    have hten : (10 : ℚ) ^ k = q.den * c := by exact_mod_cast hc
    rw [hten, ← mul_assoc, Rat.mul_den_eq_num]
    push_cast
    ring
  have hlog : (q * 10 ^ Nat.log 2 q.den).den = 1 := by
    obtain ⟨n, hn⟩ := hint _ (dvd_ten_pow_log hk)
    rw [hn, Rat.den_intCast]
  have hdec : (q * 10 ^ decimals q).den = 1 := by
    rw [decimals]
    cases hf : (List.range (Nat.log 2 q.den + 1)).find? fun k => (q * 10 ^ k).den == 1 with
    | none => exact hlog
    | some k => simpa using List.find?_some hf
  obtain ⟨c, rfl⟩ := Nat.exists_eq_add_of_le hd
  refine ⟨(q * 10 ^ decimals q).num * 10 ^ c, ?_⟩
  have hnum : ((q * 10 ^ decimals q).num : ℚ) = q * 10 ^ decimals q := by
    have := Rat.num_div_den (q * 10 ^ decimals q)
    rw [hdec] at this
    simpa using this
  push_cast
  rw [hnum, pow_add]
  ring

/-- The text of a float: sign, digits, point, digits that denote its absolute value. -/
theorem floatText_toList {q : ℚ} (h : IsDecimal q) :
    ∃ (n : ℕ) (ds : List Char), ds ≠ [] ∧ (∀ c ∈ ds, c.isDigit = true) ∧
      (floatText q).toList = (if q < 0 then ['-'] else []) ++ (natDigits n ++ '.' :: ds) ∧
      (digitsValue (natDigits n ++ ds) : ℚ) * (10 : ℚ) ^ (0 - ds.length : ℤ) = |q| := by
  obtain ⟨d, hd⟩ : ∃ d, max 1 (decimals q) = d := ⟨_, rfl⟩
  have hd1 : 1 ≤ d := hd ▸ le_max_left _ _
  obtain ⟨m, hm⟩ := h.exists_int (d := d) (hd ▸ le_max_right _ _)
  have habs : |q| * 10 ^ d = ((m.natAbs : ℤ) : ℚ) := by
    rw [← abs_of_pos (show (0 : ℚ) < 10 ^ d by positivity), ← abs_mul, hm]
    push_cast
    rfl
  obtain ⟨n, ds, hlen, hds, htext, hvalue⟩ := formatFixed_toList (show d ≠ 0 by omega) q
  refine ⟨n, ds, ?_, hds, ?_, ?_⟩
  · rintro rfl
    rw [List.length_nil] at hlen
    omega
  · rw [floatText, hd]
    exact htext
  · rw [habs, roundHalfEven_intCast] at hvalue
    rw [hlen, zero_sub, zpow_neg, zpow_natCast, ← div_eq_mul_inv, div_eq_iff (by positivity), habs]
    exact_mod_cast hvalue

/-! ### Scalars -/

theorem scanScalar_digit {c : Char} (hc : c.isDigit = true) (cs : List Char) :
    scanScalar (c :: cs) = (scanMagnitude (c :: cs)).map fun (m, rest) =>
      (match m with
        | .inl n => .int n
        | .inr q => .float (.fin q), rest) := by
  have hne : ∀ d, d.isDigit = false → d ≠ c := fun d hd => ne_of_isDigit hc hd
  have h₁ := hne 'n' (by decide)
  have h₂ := hne 't' (by decide)
  have h₃ := hne 'f' (by decide)
  have h₄ := hne 'N' (by decide)
  have h₅ := hne 'I' (by decide)
  have h₆ := hne '-' (by decide)
  have hconst : (constants.findSome? fun k =>
      (k.1.toList.isPrefixOf? (c :: cs)).map fun rest => (k.2, rest)) = none := by
    simp [constants, List.isPrefixOf?, h₁, h₂, h₃, h₄, h₅, h₆]
  rw [scanScalar, hconst]
  show scanNumber (c :: cs) = _
  unfold scanNumber
  split
  · rename_i heq
    cases heq
    exact absurd rfl h₆
  · rfl

theorem scanScalar_minus {c : Char} (hc : c.isDigit = true) (cs : List Char) :
    scanScalar ('-' :: c :: cs) = (scanMagnitude (c :: cs)).map fun (m, rest) =>
      (match m with
        | .inl n => .int (-(n : ℤ))
        | .inr q => .float (.fin (-q)), rest) := by
  have hI : 'I' ≠ c := ne_of_isDigit hc (by decide)
  have hconst : (constants.findSome? fun k =>
      (k.1.toList.isPrefixOf? ('-' :: c :: cs)).map fun rest => (k.2, rest)) = none := by
    simp [constants, List.isPrefixOf?, hI]
  rw [scanScalar, hconst]
  rfl

theorem exists_natDigits_cons (n : ℕ) :
    ∃ c cs, natDigits n = c :: cs ∧ c.isDigit = true := by
  cases hds : natDigits n with
  | nil => exact absurd hds (natDigits_ne_nil n)
  | cons c cs => exact ⟨c, cs, rfl, isDigit_of_mem_natDigits (n := n) (by simp [hds])⟩

theorem scanOnce_quote (depth : ℕ) (cs : List Char) :
    scanOnce depth ('"' :: cs) =
      (scanString cs.length cs).map fun (s, rest) => (.str (String.ofList s), rest) := by
  cases depth <;> rfl

/-- Text that starts neither a string nor a container is read as a scalar. -/
theorem scanOnce_eq_scanScalar {c : Char} (depth : ℕ) (cs : List Char) (h₁ : c ≠ '"')
    (h₂ : c ≠ '[') (h₃ : c ≠ '{') : scanOnce depth (c :: cs) = scanScalar (c :: cs) := by
  unfold scanOnce
  split <;> simp_all

theorem scanOnce_natDigits (depth n : ℕ) (rest : List Char) :
    scanOnce depth (natDigits n ++ rest) = (scanMagnitude (natDigits n ++ rest)).map
      fun (m, rest) =>
        (match m with
          | .inl n => .int n
          | .inr q => .float (.fin q), rest) := by
  obtain ⟨c, cs, hcs, hc⟩ := exists_natDigits_cons n
  rw [hcs, List.cons_append, scanOnce_eq_scanScalar depth _ (ne_of_isDigit hc (by decide)).symm
    (ne_of_isDigit hc (by decide)).symm (ne_of_isDigit hc (by decide)).symm, scanScalar_digit hc]

theorem scanOnce_minus_natDigits (depth n : ℕ) (rest : List Char) :
    scanOnce depth ('-' :: (natDigits n ++ rest)) = (scanMagnitude (natDigits n ++ rest)).map
      fun (m, rest) =>
        (match m with
          | .inl n => .int (-(n : ℤ))
          | .inr q => .float (.fin (-q)), rest) := by
  obtain ⟨c, cs, hcs, hc⟩ := exists_natDigits_cons n
  rw [hcs, List.cons_append, scanOnce_eq_scanScalar depth _ (by decide) (by decide) (by decide),
    scanScalar_minus hc]

theorem scanOnce_encodeInt {n : ℤ} {cs rest : List Char} (depth : ℕ) (h : encodeInt n = .ok cs)
    (hrest : Delimited rest) : scanOnce depth (cs ++ rest) = .ok (.int n, rest) := by
  rw [encodeInt, valueError, ite_error_eq_ok] at h
  obtain ⟨hlen, h⟩ := h
  cases h
  have hscan := scanMagnitude_natDigits (n := n.natAbs) (by omega) hrest
  by_cases hn : n < 0
  · rw [if_pos hn, List.cons_append, scanOnce_minus_natDigits, hscan]
    simp only [Except.map, Except.ok.injEq, Prod.mk.injEq, and_true]
    rw [show -(n.natAbs : ℤ) = n by omega]
  · rw [if_neg hn, scanOnce_natDigits, hscan]
    simp only [Except.map, Except.ok.injEq, Prod.mk.injEq, and_true]
    rw [show (n.natAbs : ℤ) = n by omega]

theorem scanOnce_floatText {q : ℚ} {rest : List Char} (depth : ℕ) (h : IsDecimal q)
    (hrest : Delimited rest) :
    scanOnce depth ((floatText q).toList ++ rest) = .ok (.float (.fin q), rest) := by
  obtain ⟨n, ds, hne, hds, htext, hvalue⟩ := floatText_toList h
  have hscan := scanMagnitude_decimal n hne hds hrest
  rw [htext]
  by_cases hq : q < 0
  · rw [if_pos hq, List.append_assoc, List.singleton_append, List.append_assoc,
      List.cons_append, scanOnce_minus_natDigits, hscan, hvalue, abs_of_neg hq]
    simp only [Except.map, neg_neg]
  · rw [if_neg hq, List.nil_append, List.append_assoc, List.cons_append, scanOnce_natDigits, hscan,
      hvalue, abs_of_nonneg (not_lt.1 hq)]
    rfl

/-- No constant is the beginning of another. -/
theorem scanOnce_constant {k : String × Value} (hk : k ∈ constants) (depth : ℕ) (rest : List Char) :
    scanOnce depth (k.1.toList ++ rest) = .ok (k.2, rest) := by
  have hstart : ∃ c cs, k.1.toList = c :: cs ∧ c ≠ '"' ∧ c ≠ '[' ∧ c ≠ '{' := by
    simp only [constants, List.mem_cons, List.not_mem_nil, or_false] at hk
    rcases hk with rfl | rfl | rfl | rfl | rfl | rfl <;> exact ⟨_, _, rfl, by decide⟩
  obtain ⟨c, cs, hcs, h₁, h₂, h₃⟩ := hstart
  rw [hcs, List.cons_append, scanOnce_eq_scanScalar depth _ h₁ h₂ h₃, ← List.cons_append, ← hcs]
  simp only [constants, List.mem_cons, List.not_mem_nil, or_false] at hk
  rcases hk with rfl | rfl | rfl | rfl | rfl | rfl <;>
    simp [scanScalar, constants, List.isPrefixOf?]

/-- A scalar that is read back as an equal one: it is not NaN, its floats have a finite decimal
expansion, as binary fractions have, and it is no value that only YAML has. -/
def Scalar.Storable : Scalar → Prop
  | .float (.fin q) => IsDecimal q
  | .float .nan => False
  | .stamp _ => False
  | _ => True

theorem scanOnce_encodeScalar {s : Scalar} {cs rest : List Char} (depth : ℕ)
    (h : encodeScalar s = .ok cs) (hs : Scalar.Storable s) (hrest : Delimited rest) :
    scanOnce depth (cs ++ rest) = .ok (.scalar s, rest) := by
  cases s with
  | none =>
    cases h
    exact scanOnce_constant (k := ("null", .none)) (by simp [constants]) depth rest
  | bool b =>
    cases h
    cases b with
    | false => exact scanOnce_constant (k := ("false", .bool false)) (by simp [constants]) depth rest
    | true => exact scanOnce_constant (k := ("true", .bool true)) (by simp [constants]) depth rest
  | int n => exact scanOnce_encodeInt depth h hrest
  | float f =>
    cases h
    cases f with
    | fin q => exact scanOnce_floatText depth hs hrest
    | inf => exact scanOnce_constant (k := ("Infinity", .float .inf)) (by simp [constants]) depth rest
    | negInf =>
      exact scanOnce_constant (k := ("-Infinity", .float .negInf)) (by simp [constants]) depth rest
    | nan => cases hs
  | str s =>
    cases h
    rw [encodeString, List.cons_append, List.append_assoc, List.singleton_append, scanOnce_quote,
      scanString_encodeString]
    simp [Except.map]
  | stamp text => cases hs

/-! ### The text of a value -/

/-- A document that is read back: the keys of every dictionary are distinct strings. -/
inductive Storable : Value → Prop
  | scalar {s : Scalar} : Scalar.Storable s → Storable (.scalar s)
  | list {xs : List Value} : (∀ x ∈ xs, Storable x) → Storable (.list xs)
  | dict {items : Items} : (∀ p ∈ items, ∃ k, p.1 = .str k) → (items.map Prod.fst).Nodup →
      (∀ p ∈ items, Storable p.2) → Storable (.dict items)

@[simp]
theorem storable_str (s : String) : Storable (.str s) := .scalar trivial

@[simp]
theorem storable_int (n : ℤ) : Storable (.int n) := .scalar trivial

@[simp]
theorem storable_list_iff {xs : List Value} : Storable (.list xs) ↔ ∀ x ∈ xs, Storable x :=
  ⟨fun | .list h => h, .list⟩

@[simp]
theorem storable_dict_iff {items : Items} :
    Storable (.dict items) ↔ (∀ p ∈ items, ∃ k, p.1 = .str k) ∧ (items.map Prod.fst).Nodup ∧
      ∀ p ∈ items, Storable p.2 :=
  ⟨fun | .dict hkeys hnodup hitems => ⟨hkeys, hnodup, hitems⟩,
    fun ⟨hkeys, hnodup, hitems⟩ => .dict hkeys hnodup hitems⟩

/-- A character that reading a file does not change: no carriage return, no byte order mark. -/
def Plain (c : Char) : Prop := c.toNat < 128 ∧ c ≠ '\r'

instance (c : Char) : Decidable (Plain c) := inferInstanceAs (Decidable (_ ∧ _))

theorem plain_of_isDigit {c : Char} (h : c.isDigit = true) : Plain c := by
  refine ⟨?_, (ne_of_isDigit h (by decide)).symm⟩
  simp only [Char.isDigit, Bool.and_eq_true, decide_eq_true_eq, ge_iff_le] at h
  have h₁ := UInt32.le_iff_toNat_le.1 h.2
  exact lt_of_le_of_lt h₁ (by decide)

theorem plain_hexEscape {n : ℕ} (hn : n < 65536) : ∀ c ∈ hexEscape n, Plain c := by
  have hdigit : ∀ m < 16, Plain (Nat.digitChar m) := by decide
  simp only [hexEscape, List.map_cons, List.map_nil, List.forall_mem_cons]
  exact ⟨by decide, by decide, hdigit _ (by omega), hdigit _ (by omega), hdigit _ (by omega),
    hdigit _ (by omega), by simp⟩

theorem Escapes.forall_plain {c : Char} {text : List Char} (h : Escapes c text) :
    ∀ d ∈ text, Plain d := by
  have hv := toNat_valid c
  have hletters : ∀ p ∈ shortEscapes, Plain p.2 := by decide
  cases h with
  | short h =>
    intro e he
    rcases List.mem_pair.1 he with rfl | rfl
    · decide
    · exact hletters _ h
  | plain _ _ hspace hdel =>
    intro d hd
    obtain rfl := List.mem_singleton.1 hd
    refine ⟨by omega, ?_⟩
    rintro rfl
    exact absurd hspace (by decide)
  | unit h => exact plain_hexEscape h
  | pair h =>
    intro d hd
    rcases List.mem_append.1 hd with hd | hd
    · exact plain_hexEscape (by omega) d hd
    · exact plain_hexEscape (by omega) d hd

theorem plain_encodeString (s : String) : ∀ c ∈ encodeString s, Plain c := by
  intro c hc
  rcases List.mem_cons.1 hc with rfl | hc
  · decide
  rcases List.mem_append.1 hc with hc | hc
  · obtain ⟨d, -, hd⟩ := List.mem_flatMap.1 hc
    exact (escapes_escapeChar d).forall_plain c hd
  · obtain rfl := List.mem_singleton.1 hc
    decide

theorem plain_natDigits (n : ℕ) : ∀ c ∈ natDigits n, Plain c :=
  fun _ hc => plain_of_isDigit (isDigit_of_mem_natDigits hc)

/-- The beginning of the text of a value: no white space, and no closing bracket. -/
def Opening (cs : List Char) : Prop :=
  ∃ c rest, cs = c :: rest ∧ isJsonSpace c = false ∧ c ≠ ']'

theorem Opening.append {cs : List Char} (h : Opening cs) (rest : List Char) :
    Opening (cs ++ rest) := by
  obtain ⟨c, cs, rfl, hspace, hbracket⟩ := h
  exact ⟨c, cs ++ rest, rfl, hspace, hbracket⟩

theorem opening_natDigits (n : ℕ) : Opening (natDigits n) := by
  obtain ⟨c, cs, hcs, hc⟩ := exists_natDigits_cons n
  refine ⟨c, cs, hcs, ?_, (ne_of_isDigit hc (by decide)).symm⟩
  have hne : ∀ d, d.isDigit = false → c ≠ d := fun d hd => (ne_of_isDigit hc hd).symm
  simp [isJsonSpace, hne ' ' (by decide), hne '\t' (by decide), hne '\n' (by decide),
    hne '\r' (by decide)]

theorem constant_text {k : String × Value} (hk : k ∈ constants) :
    Opening k.1.toList ∧ ∀ c ∈ k.1.toList, Plain c := by
  have hall : constants.all fun k => k.1.toList.all fun c => decide (Plain c) := by decide
  constructor
  · simp only [constants, List.mem_cons, List.not_mem_nil, or_false] at hk
    rcases hk with rfl | rfl | rfl | rfl | rfl | rfl <;> exact ⟨_, _, rfl, by decide⟩
  · intro c hc
    exact of_decide_eq_true (List.all_eq_true.1 (List.all_eq_true.1 hall k hk) c hc)

theorem forall_mem_minus {cs : List Char} (h : ∀ c ∈ cs, Plain c) : ∀ c ∈ '-' :: cs, Plain c :=
  List.forall_mem_cons.2 ⟨by decide, h⟩

theorem floatText_text {q : ℚ} (hq : IsDecimal q) :
    Opening (floatText q).toList ∧ ∀ c ∈ (floatText q).toList, Plain c := by
  obtain ⟨n, ds, -, hds, htext, -⟩ := floatText_toList hq
  have hbody : ∀ c ∈ natDigits n ++ '.' :: ds, Plain c := by
    intro c hc
    rcases List.mem_append.1 hc with hc | hc
    · exact plain_natDigits n c hc
    · rcases List.mem_cons.1 hc with rfl | hc
      · decide
      · exact plain_of_isDigit (hds c hc)
  rw [htext]
  by_cases hneg : q < 0
  · rw [if_pos hneg]
    exact ⟨⟨'-', natDigits n ++ '.' :: ds, rfl, by decide, by decide⟩, forall_mem_minus hbody⟩
  · rw [if_neg hneg]
    exact ⟨(opening_natDigits n).append _, hbody⟩

theorem encodeScalar_text {s : Scalar} {cs : List Char} (h : encodeScalar s = .ok cs)
    (hs : Scalar.Storable s) : Opening cs ∧ ∀ c ∈ cs, Plain c := by
  cases s with
  | none =>
    cases h
    exact constant_text (k := ("null", .none)) (by simp [constants])
  | bool b =>
    cases h
    cases b with
    | false => exact constant_text (k := ("false", .bool false)) (by simp [constants])
    | true => exact constant_text (k := ("true", .bool true)) (by simp [constants])
  | int n =>
    rw [encodeScalar, encodeInt, valueError, ite_error_eq_ok] at h
    cases h.2
    split_ifs
    · exact ⟨⟨_, _, rfl, by decide⟩, forall_mem_minus (plain_natDigits _)⟩
    · exact ⟨opening_natDigits _, plain_natDigits _⟩
  | float f =>
    cases h
    cases f with
    | fin q => exact floatText_text hs
    | inf => exact constant_text (k := ("Infinity", .float .inf)) (by simp [constants])
    | negInf => exact constant_text (k := ("-Infinity", .float .negInf)) (by simp [constants])
    | nan => cases hs
  | str s =>
    cases h
    exact ⟨⟨_, _, rfl, by decide⟩, plain_encodeString s⟩
  | stamp text => cases hs

theorem plain_newline (style : Style) (level : ℕ) : ∀ c ∈ style.newline level, Plain c := by
  cases style with
  | compact => simp [Style.newline]
  | spaced => simp [Style.newline]
  | indented =>
    refine List.forall_mem_cons.2 ⟨by decide, fun c hc => ?_⟩
    rw [List.eq_of_mem_replicate hc]
    decide

theorem plain_separator (style : Style) (level : ℕ) : ∀ c ∈ style.separator level, Plain c := by
  cases style with
  | compact => exact plain_newline .compact level
  | spaced => exact List.forall_mem_cons.2 ⟨by decide, by simp⟩
  | indented => exact plain_newline .indented level

theorem plain_colon (style : Style) : ∀ c ∈ style.colon, Plain c := by
  cases style with
  | compact => exact List.forall_mem_cons.2 ⟨by decide, by simp⟩
  | spaced | indented =>
    exact List.forall_mem_cons.2 ⟨by decide, List.forall_mem_cons.2 ⟨by decide, by simp⟩⟩

section Containers

variable {style : Style} {level depth : ℕ}

/-- A storable key is a string and written as one. -/
theorem encodeKey_storable {k : Scalar} {cs : List Char} (hk : ∃ s, k = .str s)
    (h : encodeKey k = .ok cs) : ∃ s, k = .str s ∧ cs = encodeString s := by
  obtain ⟨s, rfl⟩ := hk
  cases h
  exact ⟨s, rfl, rfl⟩

theorem encodeTail_plain {xs : List Value} {cs : List Char}
    (hxs : ∀ x ∈ xs, ∀ cs, encode style x level depth = .ok cs → ∀ c ∈ cs, Plain c)
    (h : encodeTail style xs level depth = .ok cs) : ∀ c ∈ cs, Plain c := by
  induction xs generalizing cs with
  | nil =>
    cases h
    simp
  | cons x xs ih =>
    rw [encodeTail] at h
    obtain ⟨first, hfirst, h⟩ := bind_eq_ok.1 h
    obtain ⟨rest, hrest, rfl⟩ := map_eq_ok.1 h
    simp only [List.forall_mem_cons, List.forall_mem_append]
    exact ⟨by decide, ⟨plain_separator _ _, hxs x List.mem_cons_self _ hfirst⟩,
      ih (fun y hy => hxs y (List.mem_cons_of_mem _ hy)) hrest⟩

theorem encodeItems_plain {items : Items} {cs : List Char}
    (hkeys : ∀ p ∈ items, ∃ k, p.1 = .str k)
    (hitems : ∀ p ∈ items, ∀ cs, encode style p.2 level depth = .ok cs → ∀ c ∈ cs, Plain c)
    (h : encodeItems style items level depth = .ok cs) : ∀ c ∈ cs, Plain c := by
  induction items generalizing cs with
  | nil =>
    cases h
    simp
  | cons p items ih =>
    obtain ⟨k, v⟩ := p
    rw [encodeItems] at h
    obtain ⟨key, hkey, h⟩ := bind_eq_ok.1 h
    obtain ⟨value, hvalue, h⟩ := bind_eq_ok.1 h
    obtain ⟨rest, hrest, rfl⟩ := map_eq_ok.1 h
    obtain ⟨s, -, rfl⟩ := encodeKey_storable (hkeys _ List.mem_cons_self) hkey
    simp only [List.forall_mem_cons, List.forall_mem_append]
    exact ⟨by decide, ⟨⟨⟨plain_separator _ _, plain_encodeString s⟩, plain_colon _⟩,
      hitems _ List.mem_cons_self _ hvalue⟩,
      ih (fun q hq => hkeys q (List.mem_cons_of_mem _ hq))
        (fun q hq => hitems q (List.mem_cons_of_mem _ hq)) hrest⟩

/-- The text of a value is plain and starts with its first character. -/
theorem encode_text (depth : ℕ) : ∀ {v : Value} {level : ℕ} {cs : List Char},
    encode style v level depth = .ok cs → Storable v → Opening cs ∧ ∀ c ∈ cs, Plain c := by
  -- on the depth; the parts of a list or an object have one less
  induction depth with
  | zero =>
    intro v level cs h hv
    cases hv with
    | scalar hs => exact encodeScalar_text (by simpa only [encode] using h) hs
    | list => simp [encode] at h
    | dict => simp [encode] at h
  | succ depth ih =>
    intro v level cs h hv
    cases hv with
    | scalar hs => exact encodeScalar_text (by simpa only [encode] using h) hs
    | @list xs hxs =>
      cases xs with
      | nil =>
        simp only [encode, Except.ok.injEq] at h
        subst h
        exact ⟨⟨'[', _, rfl, by decide, by decide⟩,
          List.forall_mem_cons.2 ⟨by decide, List.forall_mem_cons.2 ⟨by decide, by simp⟩⟩⟩
      | cons x xs =>
        rw [encode] at h
        obtain ⟨first, hfirst, h⟩ := bind_eq_ok.1 h
        obtain ⟨rest, hrest, rfl⟩ := map_eq_ok.1 h
        refine ⟨⟨'[', _, rfl, by decide, by decide⟩, ?_⟩
        simp only [List.forall_mem_cons, List.forall_mem_append]
        exact ⟨by decide, ⟨⟨⟨plain_newline _ _, (ih hfirst (hxs x List.mem_cons_self)).2⟩,
          encodeTail_plain (fun y hy cs hcs => (ih hcs (hxs y (List.mem_cons_of_mem _ hy))).2) hrest⟩,
          plain_newline _ _⟩, by decide, by simp⟩
    | @dict items hkeys hnodup hitems =>
      cases items with
      | nil =>
        simp only [encode, Except.ok.injEq] at h
        subst h
        exact ⟨⟨'{', _, rfl, by decide, by decide⟩,
          List.forall_mem_cons.2 ⟨by decide, List.forall_mem_cons.2 ⟨by decide, by simp⟩⟩⟩
      | cons p items =>
        obtain ⟨k, v⟩ := p
        rw [encode] at h
        obtain ⟨key, hkey, h⟩ := bind_eq_ok.1 h
        obtain ⟨value, hvalue, h⟩ := bind_eq_ok.1 h
        obtain ⟨rest, hrest, rfl⟩ := map_eq_ok.1 h
        obtain ⟨s, -, rfl⟩ := encodeKey_storable (hkeys _ List.mem_cons_self) hkey
        refine ⟨⟨'{', _, rfl, by decide, by decide⟩, ?_⟩
        simp only [List.forall_mem_cons, List.forall_mem_append]
        exact ⟨by decide, ⟨⟨⟨⟨⟨plain_newline _ _, plain_encodeString s⟩, plain_colon _⟩,
          (ih hvalue (hitems _ List.mem_cons_self)).2⟩,
          encodeItems_plain (fun q hq => hkeys q (List.mem_cons_of_mem _ hq))
            (fun q hq cs hcs => (ih hcs (hitems q (List.mem_cons_of_mem _ hq))).2) hrest⟩,
          plain_newline _ _⟩, by decide, by simp⟩

/-! ### Values -/

theorem delimited_cons {c : Char} (rest : List Char)
    (h : c.isDigit = false ∧ c ≠ '.' ∧ c ≠ 'e' ∧ c ≠ 'E') : Delimited (c :: rest) := by
  intro d hd
  cases hd
  exact h

theorem delimited_newline (style : Style) (level : ℕ) {c : Char} (rest : List Char)
    (h : c.isDigit = false ∧ c ≠ '.' ∧ c ≠ 'e' ∧ c ≠ 'E') :
    Delimited (style.newline level ++ c :: rest) := by
  cases style with
  | compact | spaced => exact delimited_cons rest h
  | indented => exact delimited_cons _ (by decide)

theorem skipSpace_cons {c : Char} (rest : List Char) (hc : isJsonSpace c = false) :
    skipSpace (c :: rest) = c :: rest := by
  simp [skipSpace, hc]

theorem skipSpace_newline (style : Style) (level : ℕ) {c : Char} (rest : List Char)
    (hc : isJsonSpace c = false) : skipSpace (style.newline level ++ c :: rest) = c :: rest := by
  cases style with
  | compact | spaced => exact skipSpace_cons rest hc
  | indented =>
    have hspaces : ∀ n, (List.replicate n ' ' ++ c :: rest).dropWhile isJsonSpace = c :: rest := by
      intro n
      induction n with
      | zero => exact skipSpace_cons rest hc
      | succ n ih => rw [List.replicate_succ, List.cons_append, List.dropWhile_cons_of_pos (by decide),
          ih]
    rw [Style.newline, skipSpace, List.cons_append, List.dropWhile_cons_of_pos (by decide), hspaces]

theorem skipSpace_newline_opening (style : Style) (level : ℕ) {cs : List Char} (h : Opening cs) :
    skipSpace (style.newline level ++ cs) = cs := by
  obtain ⟨c, rest, rfl, hspace, -⟩ := h
  exact skipSpace_newline style level rest hspace

theorem skipSpace_space_opening {cs : List Char} (h : Opening cs) : skipSpace (' ' :: cs) = cs := by
  obtain ⟨c, rest, rfl, hspace, -⟩ := h
  rw [skipSpace, List.dropWhile_cons_of_pos (by decide)]
  exact skipSpace_cons rest hspace

theorem skipSpace_separator_opening (style : Style) (level : ℕ) {cs : List Char} (h : Opening cs) :
    skipSpace (style.separator level ++ cs) = cs := by
  cases style with
  | compact => exact skipSpace_newline_opening .compact level h
  | spaced => exact skipSpace_space_opening h
  | indented => exact skipSpace_newline_opening .indented level h

section Scan

variable {scan : List Char → Except Exc (Value × List Char)}

/-- `scan` reads back the text of a value. -/
def ReadsBack (scan : List Char → Except Exc (Value × List Char)) (style : Style) (level depth : ℕ)
    (v : Value) : Prop :=
  ∀ cs rest, encode style v level depth = .ok cs → Delimited rest →
    Opening cs ∧ scan (cs ++ rest) = .ok (v, rest)

/-- The elements of an array are read back up to its bracket. -/
theorem scanElements_encodeTail {x : Value} {xs done : List Value} {first tail : List Char} {n : ℕ}
    (k : ℕ) (rest : List Char) (hscan : ∀ y ∈ x :: xs, ReadsBack scan style level depth y)
    (hfirst : encode style x level depth = .ok first)
    (htail : encodeTail style xs level depth = .ok tail) (hn : xs.length < n) :
    scanElements scan n (first ++ (tail ++ (style.newline k ++ ']' :: rest))) done =
      .ok (.list (done ++ x :: xs), rest) := by
  induction xs generalizing x first tail done n with
  | nil =>
    obtain ⟨m, rfl⟩ : ∃ m, n = m + 1 := ⟨n - 1, by omega⟩
    cases htail
    have hread := (hscan x List.mem_cons_self _ _ hfirst
      (delimited_newline style k rest (c := ']') (by decide))).2
    simp only [List.nil_append, scanElements, hread, Except.bind]
    rw [skipSpace_newline style k rest (by decide)]
    rfl
  | cons y ys ih =>
    obtain ⟨m, rfl⟩ : ∃ m, n = m + 1 := ⟨n - 1, by omega⟩
    rw [encodeTail] at htail
    obtain ⟨second, hsecond, htail⟩ := bind_eq_ok.1 htail
    obtain ⟨tail', htail', rfl⟩ := map_eq_ok.1 htail
    have hopen := (hscan y (by simp) _ _ hsecond (delimited_cons [] (c := ',') (by decide))).1
    rw [List.cons_append]
    have hread := (hscan x List.mem_cons_self _ _ hfirst (delimited_cons
      (style.separator level ++ second ++ tail' ++ (style.newline k ++ ']' :: rest)) (c := ',')
      (by decide))).2
    simp only [scanElements, hread, Except.bind]
    rw [skipSpace_cons _ (by decide)]
    simp only [List.append_assoc]
    rw [skipSpace_separator_opening style level (hopen.append _),
      ih (fun z hz => hscan z (List.mem_cons_of_mem _ hz)) hsecond htail'
        (by simpa using hn)]
    simp

theorem length_le_encodeTail {xs : List Value} {cs : List Char}
    (h : encodeTail style xs level depth = .ok cs) : xs.length ≤ cs.length := by
  induction xs generalizing cs with
  | nil => simp
  | cons x xs ih =>
    rw [encodeTail] at h
    obtain ⟨first, -, h⟩ := bind_eq_ok.1 h
    obtain ⟨rest, hrest, rfl⟩ := map_eq_ok.1 h
    have := ih hrest
    simp only [List.length_cons, List.length_append]
    omega

/-- A new key goes to the end. -/
theorem assign_new {items : Items} {key : String} {v : Value}
    (h : .str key ∉ items.map Prod.fst) : assign items key v = items ++ [(.str key, v)] := by
  have hnone : items.lookup key = none := by
    rw [Items.lookup, List.lookup_eq_none_iff]
    intro p hp
    rw [bne_iff_ne]
    rintro heq
    exact h (List.mem_map.2 ⟨p, hp, heq.symm⟩)
  rw [assign, hnone]
  rfl

/-- An item after an assignment has the assigned key or was there before. -/
theorem mem_assign {items : Items} {key : String} {v : Value} {p : Scalar × Value}
    (h : p ∈ assign items key v) : p = (.str key, v) ∨ p ∈ items := by
  unfold assign at h
  split_ifs at h
  · obtain ⟨q, hq, rfl⟩ := List.mem_map.1 h
    split_ifs with hkey
    · exact .inl (by rw [hkey])
    · exact .inr hq
  · rcases List.mem_append.1 h with h | h
    · exact .inr h
    · exact .inl (List.mem_singleton.1 h)

theorem keys_assign_nodup {items : Items} {key : String} {v : Value}
    (h : (items.map Prod.fst).Nodup) : ((assign items key v).map Prod.fst).Nodup := by
  by_cases hmem : .str key ∈ items.map Prod.fst
  · have hkeys : (items.map fun item => if item.1 = .str key then (item.1, v) else item).map Prod.fst =
        items.map Prod.fst := by
      rw [List.map_map]
      refine List.map_congr_left fun item _ => ?_
      rw [Function.comp_apply]
      split_ifs <;> rfl
    unfold assign
    split_ifs
    · rwa [hkeys]
    · rename_i hnone
      obtain ⟨p, hp, hkey⟩ := List.mem_map.1 hmem
      refine absurd ?_ hnone
      rw [Items.lookup, Option.isSome_iff_ne_none]
      intro hlookup
      exact absurd hkey.symm (bne_iff_ne.1 (List.lookup_eq_none_iff.1 hlookup p hp))
  · rw [assign_new hmem, List.map_append]
    refine List.nodup_append.2 ⟨h, List.nodup_singleton _, fun k hk k' hk' => ?_⟩
    rintro rfl
    obtain rfl : k = .str key := List.mem_singleton.1 hk'
    exact hmem hk

theorem storable_assign {items : Items} {key : String} {v : Value} (h : Storable (.dict items))
    (hv : Storable v) : Storable (.dict (assign items key v)) := by
  obtain ⟨hkeys, hnodup, hitems⟩ := storable_dict_iff.1 h
  refine storable_dict_iff.2 ⟨fun p hp => ?_, keys_assign_nodup hnodup, fun p hp => ?_⟩
  · rcases mem_assign hp with rfl | hp
    · exact ⟨key, rfl⟩
    · exact hkeys p hp
  · rcases mem_assign hp with rfl | hp
    · exact hv
    · exact hitems p hp

/-- Assigning to keys that are new one by one. -/
theorem foldl_assign_new {α : Type*} (key : α → String) (v : α → Value) {xs : List α} {items : Items}
    (h : (items.map Prod.fst ++ xs.map fun x => Scalar.str (key x)).Nodup) :
    xs.foldl (fun items x => assign items (key x) (v x)) items =
      items ++ xs.map fun x => (.str (key x), v x) := by
  induction xs generalizing items with
  | nil => simp
  | cons x xs ih =>
    have hnew : .str (key x) ∉ items.map Prod.fst := fun hmem =>
      List.disjoint_of_nodup_append h hmem List.mem_cons_self
    rw [List.foldl_cons, assign_new hnew, ih (by simpa using h)]
    simp

theorem scanString_key (s : String) (rest : List Char) :
    ∃ cs, encodeString s ++ rest = '"' :: cs ∧ scanString cs.length cs = .ok (s.toList, rest) := by
  refine ⟨s.toList.flatMap escapeChar ++ '"' :: rest, ?_, scanString_encodeString s rest⟩
  simp [encodeString]

theorem skipSpace_colon (style : Style) {cs : List Char} (h : Opening cs) :
    ∃ rest, skipSpace (style.colon ++ cs) = ':' :: rest ∧ skipSpace rest = cs := by
  cases style with
  | compact =>
    obtain ⟨c, rest, rfl, hspace, -⟩ := h
    exact ⟨_, skipSpace_cons _ (by decide), skipSpace_cons _ hspace⟩
  | spaced | indented =>
    exact ⟨' ' :: cs, skipSpace_cons _ (by decide), skipSpace_space_opening h⟩

/-- The members of an object are read back up to its brace; the keys are new one by one. -/
theorem scanMembers_encodeItems {key : String} {v : Value} {items : Items}
    {value tail : List Char} {n : ℕ} (done : Items) (k : ℕ) (rest : List Char)
    (hscan : ∀ p ∈ (.str key, v) :: items, ReadsBack scan style level depth p.2)
    (hkeys : ∀ p ∈ items, ∃ s, p.1 = .str s)
    (hnodup : ((done ++ (.str key, v) :: items).map Prod.fst).Nodup)
    (hvalue : encode style v level depth = .ok value)
    (htail : encodeItems style items level depth = .ok tail) (hn : items.length < n) :
    scanMembers scan n (encodeString key ++ (style.colon ++ (value ++ (tail ++
      (style.newline k ++ '}' :: rest))))) done =
      .ok (.dict (done ++ (.str key, v) :: items), rest) := by
  -- `done` holds the members read so far: every key is new to it, so it is appended
  induction items generalizing key v value tail done n with
  | nil =>
    obtain ⟨m, rfl⟩ : ∃ m, n = m + 1 := ⟨n - 1, by omega⟩
    cases htail
    obtain ⟨hopen, hread⟩ := hscan _ List.mem_cons_self _ _ hvalue
      (delimited_newline style k rest (c := '}') (by decide))
    obtain ⟨cs, hcs, hkey⟩ := scanString_key key (style.colon ++ (value ++
      (style.newline k ++ '}' :: rest)))
    obtain ⟨afterColon, hcolon, hafter⟩ := skipSpace_colon style (hopen.append
      (style.newline k ++ '}' :: rest))
    have hnew : Scalar.str key ∉ done.map Prod.fst := by
      simp only [List.map_append, List.map_cons, List.map_nil] at hnodup
      exact fun hmem => List.disjoint_of_nodup_append hnodup hmem (by simp)
    simp only [List.nil_append, scanMembers, hcs, hkey, Except.bind, hcolon, hafter, hread]
    rw [skipSpace_newline style k rest (by decide), String.ofList_toList, assign_new hnew]
    rfl
  | cons p items ih =>
    obtain ⟨m, rfl⟩ : ∃ m, n = m + 1 := ⟨n - 1, by omega⟩
    obtain ⟨k', w⟩ := p
    rw [encodeItems] at htail
    obtain ⟨keyText, hkeyText, htail⟩ := bind_eq_ok.1 htail
    obtain ⟨value', hvalue', htail⟩ := bind_eq_ok.1 htail
    obtain ⟨tail', htail', rfl⟩ := map_eq_ok.1 htail
    obtain ⟨s, rfl, rfl⟩ := encodeKey_storable (hkeys _ List.mem_cons_self) hkeyText
    have hopenKey : Opening (encodeString s) := ⟨'"', _, rfl, by decide, by decide⟩
    rw [List.cons_append]
    obtain ⟨hopen, hread⟩ := hscan _ List.mem_cons_self _ _ hvalue (delimited_cons
      (style.separator level ++ encodeString s ++ style.colon ++ value' ++ tail' ++
        (style.newline k ++ '}' :: rest)) (c := ',') (by decide))
    obtain ⟨cs, hcs, hkey⟩ := scanString_key key (style.colon ++ (value ++ ',' ::
      (style.separator level ++ encodeString s ++ style.colon ++ value' ++ tail' ++
        (style.newline k ++ '}' :: rest))))
    obtain ⟨afterColon, hcolon, hafter⟩ := skipSpace_colon style (hopen.append (',' ::
      (style.separator level ++ encodeString s ++ style.colon ++ value' ++ tail' ++
        (style.newline k ++ '}' :: rest))))
    have hnew : Scalar.str key ∉ done.map Prod.fst := by
      simp only [List.map_append, List.map_cons] at hnodup
      exact fun hmem => List.disjoint_of_nodup_append hnodup hmem (by simp)
    simp only [scanMembers, hcs, hkey, Except.bind, hcolon, hafter, hread]
    rw [skipSpace_cons _ (by decide), String.ofList_toList, assign_new hnew]
    simp only [List.append_assoc]
    rw [skipSpace_separator_opening style level (hopenKey.append _),
      ih _ (fun q hq => hscan q (List.mem_cons_of_mem _ hq))
        (fun q hq => hkeys q (List.mem_cons_of_mem _ hq)) (by simpa using hnodup) hvalue' htail'
        (by simpa using hn)]
    simp

theorem length_le_encodeItems {items : Items} {cs : List Char}
    (h : encodeItems style items level depth = .ok cs) : items.length ≤ cs.length := by
  induction items generalizing cs with
  | nil => simp
  | cons p items ih =>
    obtain ⟨k, v⟩ := p
    rw [encodeItems] at h
    obtain ⟨key, -, h⟩ := bind_eq_ok.1 h
    obtain ⟨value, -, h⟩ := bind_eq_ok.1 h
    obtain ⟨rest, hrest, rfl⟩ := map_eq_ok.1 h
    have := ih hrest
    simp only [List.length_cons, List.length_append]
    omega

theorem scanOnce_bracket {cs : List Char} (depth : ℕ) (h : Opening cs) (style : Style) (level : ℕ) :
    scanOnce (depth + 1) ('[' :: (style.newline level ++ cs)) =
      scanElements (scanOnce depth) cs.length cs [] := by
  have hskip := skipSpace_newline_opening style level h
  obtain ⟨c, rest, rfl, -, hne⟩ := h
  rw [scanOnce, hskip]
  split
  · rename_i heq
    cases heq
    exact absurd rfl hne
  · rfl

theorem scanOnce_brace {cs : List Char} (depth : ℕ) (style : Style) (level : ℕ) :
    scanOnce (depth + 1) ('{' :: (style.newline level ++ '"' :: cs)) =
      scanMembers (scanOnce depth) ('"' :: cs).length ('"' :: cs) [] := by
  rw [scanOnce, skipSpace_newline style level cs (by decide)]
  rfl

end Scan

/-- The text of a storable value is read back, whatever delimiter follows. -/
theorem scanOnce_encode (depth : ℕ) : ∀ {v : Value} (level : ℕ), Storable v →
    ReadsBack (scanOnce depth) style level depth v := by
  -- on the depth, which the encoder and the scanner spend alike
  induction depth with
  | zero =>
    intro v level hv cs rest h hrest
    refine ⟨(encode_text 0 h hv).1, ?_⟩
    cases hv with
    | scalar hs => exact scanOnce_encodeScalar 0 (by simpa only [encode] using h) hs hrest
    | list => simp [encode] at h
    | dict => simp [encode] at h
  | succ depth ih =>
    intro v level hv cs rest h hrest
    refine ⟨(encode_text _ h hv).1, ?_⟩
    cases hv with
    | scalar hs => exact scanOnce_encodeScalar _ (by simpa only [encode] using h) hs hrest
    | @list xs hxs =>
      cases xs with
      | nil =>
        simp only [encode, Except.ok.injEq] at h
        subst h
        rfl
      | cons x xs =>
        rw [encode] at h
        obtain ⟨first, hfirst, h⟩ := bind_eq_ok.1 h
        obtain ⟨tail, htail, rfl⟩ := map_eq_ok.1 h
        have hopen := (encode_text depth hfirst (hxs x List.mem_cons_self)).1
        have hlen := length_le_encodeTail htail
        simp only [List.cons_append, List.append_assoc, List.nil_append]
        rw [scanOnce_bracket depth (hopen.append _),
          scanElements_encodeTail level rest (fun y hy => ih _ (hxs y hy)) hfirst htail
            (by simp only [List.length_append, List.length_cons]; omega)]
        rfl
    | @dict items hkeys hnodup hitems =>
      cases items with
      | nil =>
        simp only [encode, Except.ok.injEq] at h
        subst h
        rfl
      | cons p items =>
        obtain ⟨k, v⟩ := p
        rw [encode] at h
        obtain ⟨key, hkey, h⟩ := bind_eq_ok.1 h
        obtain ⟨value, hvalue, h⟩ := bind_eq_ok.1 h
        obtain ⟨tail, htail, rfl⟩ := map_eq_ok.1 h
        obtain ⟨s, rfl, rfl⟩ := encodeKey_storable (hkeys _ List.mem_cons_self) hkey
        have hlen := length_le_encodeItems htail
        have hread := scanMembers_encodeItems [] level rest (fun p hp => ih _ (hitems p hp))
          (fun q hq => hkeys q (List.mem_cons_of_mem _ hq)) hnodup hvalue htail
          (n := (encodeString s ++ (style.colon ++ (value ++ (tail ++
            (style.newline level ++ '}' :: rest))))).length)
          (by simp only [List.length_append, List.length_cons]; omega)
        simp only [List.cons_append, List.append_assoc, List.nil_append]
        exact (scanOnce_brace depth style (level + 1)).trans hread

end Containers

/-- The text of a value, with a newline after it, is a document that holds the value. -/
theorem loads_encode {style : Style} {depth : ℕ} {v : Value} {cs : List Char}
    (h : encode style v 0 depth = .ok cs) (hv : Storable v) (rest : List Char)
    (hrest : rest = [] ∨ rest = ['\n']) : loads depth (cs ++ rest) = .ok v := by
  have hdelim : Delimited rest := by
    rcases hrest with rfl | rfl
    · intro c hc
      cases hc
    · exact delimited_cons [] (by decide)
  obtain ⟨⟨c, cs', rfl, hspace, -⟩, hread⟩ := scanOnce_encode depth 0 hv cs rest h hdelim
  have hbom : ¬ ((c :: cs') ++ rest).head? = some (Char.ofNat 0xfeff) := by
    have hplain := ((encode_text depth h hv).2 c List.mem_cons_self).1
    rintro heq
    cases heq
    exact absurd hplain (by decide)
  rw [loads, if_neg hbom, List.cons_append, skipSpace_cons _ hspace, ← List.cons_append, hread]
  simp only [Except.bind]
  rw [if_pos (by rcases hrest with rfl | rfl <;> rfl)]

/-! ### The order of keys -/

theorem eq_refl_scalar {s : Scalar} (hs : Scalar.Storable s) : s.eq s = true := by
  cases s with
  | float f => cases f <;> simp_all [Scalar.eq, Scalar.number, Scalar.Storable]
  | stamp text => cases hs
  | _ => simp [Scalar.eq, Scalar.number]

theorem eqList_of_forall₂ {xs ys : List Value} (h : List.Forall₂ (fun x y => x.eq y = true) xs ys) :
    Value.eqList xs ys = true := by
  induction h with
  | nil => simp [Value.eqList]
  | cons hxy _ ih => simp [Value.eqList, hxy, ih]

theorem find?_key {items : Items} {p : Scalar × Value} (hp : p ∈ items)
    (hkeys : ∀ p ∈ items, ∃ k, p.1 = .str k) (hnodup : (items.map Prod.fst).Nodup) :
    items.find? (fun q => p.1.eq q.1) = some p := by
  obtain ⟨k, hk⟩ := hkeys p hp
  induction items with
  | nil => cases hp
  | cons q items ih =>
    rw [List.map_cons, List.nodup_cons] at hnodup
    obtain ⟨k', hk'⟩ := hkeys q List.mem_cons_self
    rcases List.mem_cons.1 hp with rfl | hp
    · exact List.find?_cons_of_pos (by simp [hk, Scalar.eq])
    · have hne : k ≠ k' := by
        rintro rfl
        exact hnodup.1 (List.mem_map.2 ⟨p, hp, hk.trans hk'.symm⟩)
      rw [List.find?_cons_of_neg (by simp [hk, hk', Scalar.eq, hne]),
        ih hp (fun q hq => hkeys q (List.mem_cons_of_mem _ hq)) hnodup.2]

/-- Two dictionaries of one size are equal when each item of the first has an equal one in the
second. -/
theorem eq_dict {xs ys : Items} (hlen : xs.length = ys.length)
    (hkeys : ∀ p ∈ ys, ∃ k, p.1 = .str k) (hnodup : (ys.map Prod.fst).Nodup)
    (h : ∀ q ∈ xs, ∃ p ∈ ys, p.1 = q.1 ∧ q.2.eq p.2 = true) :
    (Value.dict xs).eq (.dict ys) = true := by
  have hitems : Value.eqItems xs ys = true := by
    clear hlen
    induction xs with
    | nil => rw [Value.eqItems]
    | cons q xs ih =>
      obtain ⟨p, hp, hfst, heq⟩ := h q List.mem_cons_self
      obtain ⟨k, v⟩ := q
      obtain rfl : p.1 = k := hfst
      rw [Value.eqItems, find?_key hp hkeys hnodup, ih fun q hq => h q (List.mem_cons_of_mem _ hq)]
      simpa using heq
  rw [Value.eq, hitems]
  simp [hlen]

theorem eq_refl_of_storable {v : Value} (hv : Storable v) : v.eq v = true := by
  induction hv with
  | scalar hs =>
    rw [Value.eq]
    exact eq_refl_scalar hs
  | @list xs hxs ih =>
    rw [Value.eq]
    exact eqList_of_forall₂ (List.forall₂_same.2 ih)
  | dict hkeys hnodup hitems ih =>
    exact eq_dict rfl hkeys hnodup fun q hq => ⟨q, hq, rfl, ih q hq⟩

theorem sortKeysList_eq_ok {xs ys : List Value} (h : sortKeysList xs = .ok ys) :
    List.Forall₂ (fun x y => sortKeys x = .ok y) xs ys := by
  induction xs generalizing ys with
  | nil =>
    cases h
    exact .nil
  | cons x xs ih =>
    rw [sortKeysList] at h
    obtain ⟨y, hy, h⟩ := bind_eq_ok.1 h
    obtain ⟨ys, hys, rfl⟩ := map_eq_ok.1 h
    exact .cons hy (ih hys)

theorem sortKeysItems_eq_ok {xs ys : Items} (h : sortKeysItems xs = .ok ys) :
    List.Forall₂ (fun p q => q.1 = p.1 ∧ sortKeys p.2 = .ok q.2) xs ys := by
  induction xs generalizing ys with
  | nil =>
    cases h
    exact .nil
  | cons p xs ih =>
    obtain ⟨k, v⟩ := p
    rw [sortKeysItems] at h
    obtain ⟨y, hy, h⟩ := bind_eq_ok.1 h
    obtain ⟨ys, hys, rfl⟩ := map_eq_ok.1 h
    exact .cons ⟨rfl, hy⟩ (ih hys)

theorem sortItems_perm {xs ys : Items} (h : sortItems xs = .ok ys) : ys.Perm xs := by
  unfold sortItems at h
  split_ifs at h
  · cases h
    exact .refl _
  · cases h
    exact List.perm_insertionSort _ _
  · cases h
    exact List.perm_insertionSort _ _
  · cases h

/-- Sorting the keys of a dictionary sorts the keys of its values and then its items. -/
theorem sortKeys_dict {items : Items} {w : Value} (h : sortKeys (.dict items) = .ok w) :
    ∃ values sorted, w = .dict sorted ∧ sorted.Perm values ∧
      List.Forall₂ (fun p q => q.1 = p.1 ∧ sortKeys p.2 = .ok q.2) items values := by
  rw [sortKeys] at h
  obtain ⟨values, hvalues, h⟩ := bind_eq_ok.1 h
  obtain ⟨sorted, hsorted, rfl⟩ := map_eq_ok.1 h
  exact ⟨values, sorted, rfl, sortItems_perm hsorted, sortKeysItems_eq_ok hvalues⟩

/-- Sorting the keys gives an equal document. -/
theorem sortKeys_eq {v w : Value} (hv : Storable v) (h : sortKeys v = .ok w) :
    Storable w ∧ w.eq v = true := by
  induction hv generalizing w with
  | @scalar s hs =>
    rw [sortKeys] at h
    cases h
    exact ⟨.scalar hs, eq_refl_of_storable (.scalar hs)⟩
  | @list xs hxs ih =>
    rw [sortKeys] at h
    obtain ⟨ys, hys, rfl⟩ := map_eq_ok.1 h
    have hys := sortKeysList_eq_ok hys
    refine ⟨.list fun y hy => ?_, ?_⟩
    · obtain ⟨x, hx, hxy⟩ := forall₂_mem_right hys hy
      exact (ih x hx hxy).1
    · rw [Value.eq]
      exact eqList_of_forall₂ (forall₂_imp_mem hys fun x hx y hxy => (ih x hx hxy).2).flip
  | @dict items hkeys hnodup hitems ih =>
    obtain ⟨values, sorted, rfl, hperm, hvalues⟩ := sortKeys_dict h
    have horigin : ∀ q ∈ sorted, ∃ p ∈ items, q.1 = p.1 ∧ sortKeys p.2 = .ok q.2 :=
      fun q hq => forall₂_mem_right hvalues (hperm.mem_iff.1 hq)
    have hfst : values.map Prod.fst = items.map Prod.fst := by
      refine List.forall₂_eq_eq_eq ▸ ?_
      exact (List.forall₂_map_left_iff.2 (List.forall₂_map_right_iff.2
        (hvalues.flip.imp fun _ _ hpq => hpq.1)))
    refine ⟨.dict (fun q hq => ?_) ?_ fun q hq => ?_, eq_dict ?_ hkeys hnodup fun q hq => ?_⟩
    · obtain ⟨p, hp, hqp, -⟩ := horigin q hq
      rw [hqp]
      exact hkeys p hp
    · rw [(hperm.map Prod.fst).nodup_iff, hfst]
      exact hnodup
    · obtain ⟨p, hp, -, hq⟩ := horigin q hq
      exact (ih p hp hq).1
    · rw [hperm.length_eq, hvalues.length_eq]
    · obtain ⟨p, hp, hqp, hq⟩ := horigin q hq
      exact ⟨p, hp, hqp.symm, (ih p hp hq).2⟩

/-- After sorting a key leads to the value that it led to, with its keys sorted. -/
theorem lookup_sortKeys {items sorted : Items} {key : String} {v : Value}
    (hitems : Storable (.dict items)) (h : sortKeys (.dict items) = .ok (.dict sorted)) :
    sorted.lookup key = some v ↔ ∃ u, items.lookup key = some u ∧ sortKeys u = .ok v := by
  obtain ⟨-, hnodup, -⟩ := storable_dict_iff.1 hitems
  obtain ⟨-, hsorted, -⟩ := storable_dict_iff.1 (sortKeys_eq hitems h).1
  obtain ⟨values, _, heq, hperm, hvalues⟩ := sortKeys_dict h
  cases heq
  constructor
  · intro hv
    obtain ⟨⟨k, u⟩, hu, rfl, hsort⟩ := forall₂_mem_right hvalues
      (hperm.mem_iff.1 (Dict.mem_of_lookup hv))
    exact ⟨u, Dict.lookup_of_mem hnodup hu, hsort⟩
  · rintro ⟨u, hu, hsort⟩
    obtain ⟨⟨k, v'⟩, hv, rfl, hsort'⟩ := forall₂_mem_right hvalues.flip (Dict.mem_of_lookup hu)
    obtain rfl := Except.ok.inj (hsort.symm.trans hsort')
    exact Dict.lookup_of_mem hsorted (hperm.mem_iff.2 hv)

/-- **Round trip.**  What `dumps` writes of a storable document, with or without a newline after it,
is read back as an equal document, and reading it as a text file changes nothing. -/
theorem loads_dumps {style : Style} {depth : ℕ} {v : Value} {cs : List Char}
    (h : dumps style depth v = .ok cs) (hv : Storable v) :
    (∀ c ∈ cs, Plain c) ∧ ∀ rest, rest = [] ∨ rest = ['\n'] →
      ∃ w, loads depth (cs ++ rest) = .ok w ∧ w.eq v = true := by
  cases style with
  | compact | spaced =>
    obtain ⟨w, hw, h⟩ := bind_eq_ok.1 h
    obtain ⟨hstore, heq⟩ := sortKeys_eq hv hw
    exact ⟨(encode_text depth h hstore).2, fun rest hrest =>
      ⟨w, loads_encode h hstore rest hrest, heq⟩⟩
  | indented =>
    exact ⟨(encode_text depth h hv).2, fun rest hrest =>
      ⟨v, loads_encode h hv rest hrest, eq_refl_of_storable hv⟩⟩

/-! ### Documents that can be written -/

/-- A document with string keys whose scalars can be written and that does not nest too deep. -/
inductive Encodable : ℕ → Value → Prop
  | scalar {depth : ℕ} {s : Scalar} {cs : List Char} : encodeScalar s = .ok cs →
      Encodable depth (.scalar s)
  | list {depth : ℕ} {xs : List Value} : (∀ x ∈ xs, Encodable depth x) →
      Encodable (depth + 1) (.list xs)
  | dict {depth : ℕ} {items : Items} : (∀ p ∈ items, ∃ k, p.1 = .str k) →
      (∀ p ∈ items, Encodable depth p.2) → Encodable (depth + 1) (.dict items)

section Encodable

variable {style : Style} {depth level : ℕ}

@[simp]
theorem encodable_str (s : String) : Encodable depth (.str s) := .scalar rfl

theorem encodable_int {n : ℤ} (h : (natDigits n.natAbs).length ≤ maxIntDigits) :
    Encodable depth (.int n) := by
  have hencode : encodeScalar (.int n) =
      .ok (if n < 0 then '-' :: natDigits n.natAbs else natDigits n.natAbs) := by
    simp [encodeScalar, encodeInt, h]
  exact .scalar hencode

@[simp]
theorem encodable_list_iff {xs : List Value} :
    Encodable (depth + 1) (.list xs) ↔ ∀ x ∈ xs, Encodable depth x :=
  ⟨fun | .list h => h, .list⟩

@[simp]
theorem encodable_dict_iff {items : Items} :
    Encodable (depth + 1) (.dict items) ↔ (∀ p ∈ items, ∃ k, p.1 = .str k) ∧
      ∀ p ∈ items, Encodable depth p.2 :=
  ⟨fun | .dict hkeys hitems => ⟨hkeys, hitems⟩, fun ⟨hkeys, hitems⟩ => .dict hkeys hitems⟩

theorem encodeTail_isOk {xs : List Value}
    (h : ∀ x ∈ xs, ∃ cs, encode style x level depth = .ok cs) :
    ∃ cs, encodeTail style xs level depth = .ok cs := by
  induction xs with
  | nil => exact ⟨[], by rw [encodeTail]⟩
  | cons x xs ih =>
    obtain ⟨first, hfirst⟩ := h x List.mem_cons_self
    obtain ⟨rest, hrest⟩ := ih fun y hy => h y (List.mem_cons_of_mem _ hy)
    rw [encodeTail, hfirst, hrest]
    exact ⟨_, rfl⟩

theorem encodeItems_isOk {items : Items} (hkeys : ∀ p ∈ items, ∃ k, p.1 = .str k)
    (h : ∀ p ∈ items, ∃ cs, encode style p.2 level depth = .ok cs) :
    ∃ cs, encodeItems style items level depth = .ok cs := by
  induction items with
  | nil => exact ⟨[], by rw [encodeItems]⟩
  | cons p items ih =>
    obtain ⟨key, v⟩ := p
    obtain ⟨k, rfl⟩ : ∃ k, key = .str k := hkeys _ List.mem_cons_self
    obtain ⟨value, hvalue⟩ := h _ List.mem_cons_self
    obtain ⟨rest, hrest⟩ := ih (fun q hq => hkeys q (List.mem_cons_of_mem _ hq))
      fun q hq => h q (List.mem_cons_of_mem _ hq)
    rw [encodeItems, hvalue, hrest]
    exact ⟨_, rfl⟩

theorem encode_isOk {v : Value} (h : Encodable depth v) (level : ℕ) :
    ∃ cs, encode style v level depth = .ok cs := by
  induction h generalizing level with
  | @scalar depth s cs hs => exact ⟨cs, by rw [encode, hs]⟩
  | @list depth xs hxs ih =>
    cases xs with
    | nil => exact ⟨_, by rw [encode]⟩
    | cons x xs =>
      obtain ⟨first, hfirst⟩ := ih x List.mem_cons_self (level + 1)
      obtain ⟨rest, hrest⟩ := encodeTail_isOk fun y hy =>
        ih y (List.mem_cons_of_mem _ hy) (level + 1)
      rw [encode, hfirst, hrest]
      exact ⟨_, rfl⟩
  | @dict depth items hkeys hitems ih =>
    cases items with
    | nil => exact ⟨_, by rw [encode]⟩
    | cons p items =>
      obtain ⟨key, v⟩ := p
      obtain ⟨k, rfl⟩ : ∃ k, key = .str k := hkeys _ List.mem_cons_self
      obtain ⟨value, hvalue⟩ := ih _ List.mem_cons_self (level + 1)
      obtain ⟨rest, hrest⟩ := encodeItems_isOk (fun q hq => hkeys q (List.mem_cons_of_mem _ hq))
        fun q hq => ih q (List.mem_cons_of_mem _ hq) (level + 1)
      rw [encode, hvalue, hrest]
      exact ⟨_, rfl⟩

theorem sortItems_isOk {items : Items} (hkeys : ∀ p ∈ items, ∃ k, p.1 = .str k) :
    ∃ sorted, sortItems items = .ok sorted := by
  unfold sortItems
  split_ifs with hlen hall hnumber
  · exact ⟨_, rfl⟩
  · exact ⟨_, rfl⟩
  · exact ⟨_, rfl⟩
  · refine absurd (List.all_eq_true.2 fun p hp => ?_) hall
    obtain ⟨k, hk⟩ := hkeys p hp
    rw [hk]

theorem sortKeysList_isOk {xs : List Value} (h : ∀ x ∈ xs, ∃ y, sortKeys x = .ok y) :
    ∃ ys, sortKeysList xs = .ok ys := by
  induction xs with
  | nil => exact ⟨[], by rw [sortKeysList]⟩
  | cons x xs ih =>
    obtain ⟨y, hy⟩ := h x List.mem_cons_self
    obtain ⟨ys, hys⟩ := ih fun z hz => h z (List.mem_cons_of_mem _ hz)
    rw [sortKeysList, hy, hys]
    exact ⟨_, rfl⟩

theorem sortKeysItems_isOk {items : Items} (h : ∀ p ∈ items, ∃ y, sortKeys p.2 = .ok y) :
    ∃ values, sortKeysItems items = .ok values := by
  induction items with
  | nil => exact ⟨[], by rw [sortKeysItems]⟩
  | cons p items ih =>
    obtain ⟨k, v⟩ := p
    obtain ⟨y, hy⟩ := h _ List.mem_cons_self
    obtain ⟨values, hvalues⟩ := ih fun q hq => h q (List.mem_cons_of_mem _ hq)
    rw [sortKeysItems, hy, hvalues]
    exact ⟨_, rfl⟩

/-- Sorting the keys does not make a document unwritable. -/
theorem sortKeys_isOk {v : Value} (h : Encodable depth v) :
    ∃ w, sortKeys v = .ok w ∧ Encodable depth w := by
  induction h with
  | @scalar depth s cs hs => exact ⟨.scalar s, by rw [sortKeys], .scalar hs⟩
  | @list depth xs hxs ih =>
    obtain ⟨ys, hys⟩ := sortKeysList_isOk fun x hx => (ih x hx).imp fun _ h => h.1
    refine ⟨.list ys, by rw [sortKeys, hys]; rfl, .list fun y hy => ?_⟩
    obtain ⟨x, hx, hxy⟩ := forall₂_mem_right (sortKeysList_eq_ok hys) hy
    obtain ⟨w, hw, hencodable⟩ := ih x hx
    rwa [← Except.ok.inj (hw.symm.trans hxy)]
  | @dict depth items hkeys hitems ih =>
    obtain ⟨values, hvalues⟩ := sortKeysItems_isOk fun p hp => (ih p hp).imp fun _ h => h.1
    have horigin : ∀ q ∈ values, ∃ p ∈ items, q.1 = p.1 ∧ sortKeys p.2 = .ok q.2 :=
      fun q hq => forall₂_mem_right (sortKeysItems_eq_ok hvalues) hq
    have hkeys' : ∀ q ∈ values, ∃ k, q.1 = .str k := by
      intro q hq
      obtain ⟨p, hp, hqp, -⟩ := horigin q hq
      exact hqp ▸ hkeys p hp
    obtain ⟨sorted, hsorted⟩ := sortItems_isOk hkeys'
    have hmem : ∀ q ∈ sorted, q ∈ values := fun q hq => (sortItems_perm hsorted).mem_iff.1 hq
    refine ⟨.dict sorted, by rw [sortKeys, hvalues, Except.bind, hsorted]; rfl,
      .dict (fun q hq => hkeys' q (hmem q hq)) fun q hq => ?_⟩
    obtain ⟨p, hp, -, hpq⟩ := horigin q (hmem q hq)
    obtain ⟨w, hw, hencodable⟩ := ih p hp
    rwa [← Except.ok.inj (hw.symm.trans hpq)]

/-- `dumps` returns on an encodable document. -/
theorem dumps_isOk {v : Value} (h : Encodable depth v) : ∃ cs, dumps style depth v = .ok cs := by
  cases style with
  | compact | spaced =>
    obtain ⟨w, hw, hencodable⟩ := sortKeys_isOk h
    rw [dumps, hw]
    exact encode_isOk hencodable 0
  | indented => exact encode_isOk h 0

end Encodable

end Json

end Py

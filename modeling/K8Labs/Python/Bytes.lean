import K8Labs.Python.Str
import K8Labs.Python.Value

/-!
# Bytes

Bytes as lists: the little-endian integers that `struct` packs, hexadecimal digits, `bytes.fromhex`
and `int(text, 16)`, base64, and the slices of a fixed length that a `range` with a step goes
through.

* `fromLittleEndian_littleEndian` : an integer that fits is read back.
* `parseHex_hexDigits` and `fromHex_hexText` : printed digits are read back.
* `chunks_flatten` and `flatten_chunks` : slices of one length, put together and cut again.
-/

namespace Py

/-! ### Little-endian integers -/

/-- The `w` little-endian bytes of a number. -/
def littleEndian : ℕ → ℕ → List UInt8
  | 0, _ => []
  | w + 1, n => UInt8.ofNat (n % 256) :: littleEndian w (n / 256)

/-- The number with the given little-endian bytes. -/
def fromLittleEndian : List UInt8 → ℕ
  | [] => 0
  | b :: bs => b.toNat + 256 * fromLittleEndian bs

@[simp] theorem length_littleEndian (w n : ℕ) : (littleEndian w n).length = w := by
  induction w generalizing n with
  | zero => rfl
  | succ w ih => rw [littleEndian, List.length_cons, ih]

theorem fromLittleEndian_littleEndian {w n : ℕ} (h : n < 256 ^ w) :
    fromLittleEndian (littleEndian w n) = n := by
  induction w generalizing n with
  | zero =>
    rw [pow_zero, Nat.lt_one_iff] at h
    rw [h]
    rfl
  | succ w ih =>
    have hdiv : n / 256 < 256 ^ w := by
      rw [Nat.div_lt_iff_lt_mul (by omega), ← pow_succ]
      exact h
    have hbyte : (UInt8.ofNat (n % 256)).toNat = n % 256 :=
      UInt8.toNat_ofNat_of_lt' (Nat.mod_lt n (by decide))
    rw [littleEndian, fromLittleEndian, ih hdiv, hbyte]
    omega

/-- `struct.pack` of one unsigned integer of `w` bytes, little-endian. -/
def packUnsigned (w : ℕ) (n : ℤ) : Except Exc (List UInt8) :=
  if 0 ≤ n ∧ n < 256 ^ w then .ok (littleEndian w n.toNat)
  else .error ⟨.structError, "argument out of range"⟩

theorem packUnsigned_of_lt {w n : ℕ} (h : n < 256 ^ w) :
    packUnsigned w n = .ok (littleEndian w n) := by
  refine if_pos ⟨by omega, ?_⟩
  exact_mod_cast h

theorem packUnsigned_of_le {w n : ℕ} (h : 256 ^ w ≤ n) :
    packUnsigned w n = .error ⟨.structError, "argument out of range"⟩ := by
  refine if_neg fun hlt => ?_
  have : n < 256 ^ w := by exact_mod_cast hlt.2
  omega

/-! ### Hexadecimal digits -/

/-- The value of a hexadecimal digit of the ASCII range. -/
def asciiHexDigit? (c : Char) : Option ℕ :=
  if 48 ≤ c.toNat ∧ c.toNat ≤ 57 then some (c.toNat - 48)
  else if 97 ≤ c.toNat ∧ c.toNat ≤ 102 then some (c.toNat - 87)
  else if 65 ≤ c.toNat ∧ c.toNat ≤ 70 then some (c.toNat - 55)
  else none

/-- The lower-case digit of a number below sixteen. -/
def hexDigit (n : ℕ) : Char := Nat.digitChar n

/-- The `k` lower-case digits of a number, the highest first: the format `0kx`, for a number that
has no more. -/
def hexDigits : ℕ → ℕ → List Char
  | 0, _ => []
  | k + 1, n => hexDigits k (n / 16) ++ [hexDigit (n % 16)]

/-- `f"{byte:02x}"`. -/
def byteHex (b : UInt8) : List Char := hexDigits 2 b.toNat

/-- A fact about all numbers below sixteen, checked one by one. -/
theorem forall_hexDigit {P : ℕ → Prop} [DecidablePred P] (h : ∀ n < 16, P n) {n : ℕ} (hn : n < 16) :
    P n := h n hn

theorem asciiHexDigit?_hexDigit {n : ℕ} (hn : n < 16) : asciiHexDigit? (hexDigit n) = some n :=
  forall_hexDigit (P := fun n => asciiHexDigit? (hexDigit n) = some n) (by decide) hn

@[simp] theorem length_hexDigits (k n : ℕ) : (hexDigits k n).length = k := by
  induction k generalizing n with
  | zero => rfl
  | succ k ih => rw [hexDigits, List.length_append, ih, List.length_singleton]

theorem mem_hexDigits {k n : ℕ} {c : Char} (hc : c ∈ hexDigits k n) :
    ∃ d < 16, c = hexDigit d := by
  induction k generalizing n with
  | zero => cases hc
  | succ k ih =>
    rw [hexDigits, List.mem_append, List.mem_singleton] at hc
    rcases hc with hc | rfl
    · exact ih hc
    · exact ⟨n % 16, Nat.mod_lt _ (by decide), rfl⟩

/-! ### `int(text, 16)` -/

/-- The value of a digit that `int` accepts in base sixteen. -/
def hexDigit? (c : Char) : Option ℕ := (digit? c).orElse fun _ => asciiHexDigit? c

/-- Hexadecimal digits with single underscores between them: their values. -/
def groupedHex : List Char → Option (List ℕ)
  | [] => none
  | [c] => (hexDigit? c).map fun d => [d]
  | c :: '_' :: cs => (hexDigit? c).bind fun d => (groupedHex cs).map (d :: ·)
  | c :: cs => (hexDigit? c).bind fun d => (groupedHex cs).map (d :: ·)

/-- The text after the prefix `0x`, if it has one; an underscore may follow the prefix. -/
def afterHexPrefix : List Char → List Char
  | '0' :: 'x' :: '_' :: cs => cs
  | '0' :: 'X' :: '_' :: cs => cs
  | '0' :: 'x' :: cs => cs
  | '0' :: 'X' :: cs => cs
  | cs => cs

/-- The number a run of hexadecimal digits denotes. -/
def hexValue (ds : List ℕ) : ℕ := ds.foldl (fun n d => 16 * n + d) 0

/-- `int(text, 16)`. -/
def parseHex (text : List Char) : Except Exc ℤ :=
  let (negative, cs) := splitSign (strip (String.ofList text)).toList
  match groupedHex (afterHexPrefix cs) with
  | some ds => .ok (if negative then -(hexValue ds : ℤ) else hexValue ds)
  | none => valueError ("invalid literal for int() with base 16: " ++ quoted (String.ofList text))

theorem hexDigit?_hexDigit {n : ℕ} (hn : n < 16) : hexDigit? (hexDigit n) = some n :=
  forall_hexDigit (P := fun n => hexDigit? (hexDigit n) = some n) (by decide) hn

theorem groupedHex_of_ne_underscore {c : Char} {cs : List Char} (hne : cs ≠ [])
    (hhead : cs.head? ≠ some '_') :
    groupedHex (c :: cs) = (hexDigit? c).bind fun d => (groupedHex cs).map (d :: ·) := by
  cases cs with
  | nil => exact absurd rfl hne
  | cons d cs =>
    refine groupedHex.eq_4 c (d :: cs) (by simp) ?_
    rintro rest h
    cases h
    exact hhead rfl

theorem groupedHex_map {ds : List ℕ} (hne : ds ≠ []) (hlt : ∀ d ∈ ds, d < 16) :
    groupedHex (ds.map hexDigit) = some ds := by
  induction ds with
  | nil => exact absurd rfl hne
  | cons d ds ih =>
    rw [List.forall_mem_cons] at hlt
    cases ds with
    | nil => simp [groupedHex, hexDigit?_hexDigit hlt.1]
    | cons d' ds =>
      have hhead : hexDigit d' ≠ '_' :=
        forall_hexDigit (P := fun n => hexDigit n ≠ '_') (by decide) (hlt.2 d' List.mem_cons_self)
      rw [List.map_cons, groupedHex_of_ne_underscore (by simp) (by simpa using hhead),
        hexDigit?_hexDigit hlt.1, ih (by simp) hlt.2]
      rfl

/-- The values of the digits of a number. -/
def hexValues : ℕ → ℕ → List ℕ
  | 0, _ => []
  | k + 1, n => hexValues k (n / 16) ++ [n % 16]

theorem hexDigits_eq_map (k n : ℕ) : hexDigits k n = (hexValues k n).map hexDigit := by
  induction k generalizing n with
  | zero => rfl
  | succ k ih => rw [hexDigits, hexValues, List.map_append, ih]; rfl

theorem hexValues_lt {k n d : ℕ} (h : d ∈ hexValues k n) : d < 16 := by
  induction k generalizing n with
  | zero => cases h
  | succ k ih =>
    rw [hexValues, List.mem_append, List.mem_singleton] at h
    rcases h with h | rfl
    · exact ih h
    · exact Nat.mod_lt _ (by decide)

theorem hexValue_hexValues {k n : ℕ} (h : n < 16 ^ k) : hexValue (hexValues k n) = n := by
  induction k generalizing n with
  | zero =>
    rw [pow_zero, Nat.lt_one_iff] at h
    rw [h]
    rfl
  | succ k ih =>
    have hdiv : n / 16 < 16 ^ k := by
      rw [Nat.div_lt_iff_lt_mul (by omega), ← pow_succ]
      exact h
    have hlast : ∀ ds d, hexValue (ds ++ [d]) = 16 * hexValue ds + d := fun ds d => by
      rw [hexValue, List.foldl_append]
      rfl
    rw [hexValues, hlast, ih hdiv]
    omega

theorem splitSign_eq_self {cs : List Char} (hminus : '-' ∉ cs) (hplus : '+' ∉ cs) :
    splitSign cs = (false, cs) := by
  unfold splitSign
  split
  · exact absurd List.mem_cons_self hminus
  · exact absurd List.mem_cons_self hplus
  · rfl

theorem afterHexPrefix_eq_self {cs : List Char} (hx : 'x' ∉ cs) (hX : 'X' ∉ cs) :
    afterHexPrefix cs = cs := by
  unfold afterHexPrefix
  split
  · simp at hx
  · simp at hX
  · simp at hx
  · simp at hX
  · rfl

theorem notMem_hexDigits {k n : ℕ} {c : Char} (h : ∀ d < 16, hexDigit d ≠ c) :
    c ∉ hexDigits k n := by
  intro hc
  obtain ⟨d, hd, rfl⟩ := mem_hexDigits hc
  exact h d hd rfl

/-- **Printed digits are read back.** -/
theorem parseHex_hexDigits {k n : ℕ} (hk : 0 < k) (h : n < 16 ^ k) :
    parseHex (hexDigits k n) = .ok n := by
  have hspace : ∀ c ∈ hexDigits k n, isSpace c = false := by
    intro c hc
    obtain ⟨d, hd, rfl⟩ := mem_hexDigits hc
    exact forall_hexDigit (P := fun d => isSpace (hexDigit d) = false) (by decide) hd
  have hvalues : hexValues k n ≠ [] := by
    intro hnil
    have hlength := length_hexDigits k n
    rw [hexDigits_eq_map, hnil, List.map_nil, List.length_nil] at hlength
    omega
  have hgrouped : groupedHex (hexDigits k n) = some (hexValues k n) := by
    rw [hexDigits_eq_map]
    exact groupedHex_map hvalues fun d => hexValues_lt
  unfold parseHex
  rw [strip_eq_self hspace, String.toList_ofList,
    splitSign_eq_self (notMem_hexDigits (by decide)) (notMem_hexDigits (by decide))]
  dsimp only
  rw [afterHexPrefix_eq_self (notMem_hexDigits (by decide)) (notMem_hexDigits (by decide)), hgrouped]
  simp [hexValue_hexValues h]

/-! ### `bytes.fromhex` -/

/-- ASCII white space. -/
def isAsciiSpace (c : Char) : Bool := [9, 10, 11, 12, 13, 32].contains c.toNat

/-- Pairs of digits, with ASCII white space between the pairs. -/
def fromHexPairs : List Char → Option (List UInt8)
  | [] => some []
  | [c] => if isAsciiSpace c then some [] else none
  | c :: d :: cs =>
    if isAsciiSpace c then fromHexPairs (d :: cs)
    else (asciiHexDigit? c).bind fun high => (asciiHexDigit? d).bind fun low =>
      (fromHexPairs cs).map (UInt8.ofNat (16 * high + low) :: ·)

/-- `bytes.fromhex`. -/
def fromHex (text : List Char) : Except Exc (List UInt8) :=
  match fromHexPairs text with
  | some bytes => .ok bytes
  | none => valueError "non-hexadecimal number found in fromhex() arg"

theorem byteHex_eq (b : UInt8) : byteHex b = [hexDigit (b.toNat / 16), hexDigit (b.toNat % 16)] := by
  have hhigh : b.toNat / 16 % 16 = b.toNat / 16 := Nat.mod_eq_of_lt (by have := b.toNat_lt; omega)
  simp [byteHex, hexDigits, hhigh]

/-- **Printed bytes are read back.** -/
theorem fromHex_byteHex (bytes : List UInt8) : fromHex (bytes.flatMap byteHex) = .ok bytes := by
  have hpairs : fromHexPairs (bytes.flatMap byteHex) = some bytes := by
    induction bytes with
    | nil => rfl
    | cons b bytes ih =>
      have hb := b.toNat_lt
      have hhigh : b.toNat / 16 < 16 := by omega
      have hlow : b.toNat % 16 < 16 := Nat.mod_lt _ (by decide)
      have hspace : isAsciiSpace (hexDigit (b.toNat / 16)) = false :=
        forall_hexDigit (P := fun d => isAsciiSpace (hexDigit d) = false) (by decide) hhigh
      have hbyte : 16 * (b.toNat / 16) + b.toNat % 16 = b.toNat := Nat.div_add_mod _ _
      rw [List.flatMap_cons, byteHex_eq, List.cons_append, List.cons_append, List.nil_append,
        fromHexPairs, hspace, asciiHexDigit?_hexDigit hhigh, asciiHexDigit?_hexDigit hlow, ih]
      simp only [Bool.false_eq_true, if_false, Option.bind_some, Option.map_some]
      rw [hbyte, UInt8.ofNat_toNat]
  rw [fromHex, hpairs]

/-! ### Base64 -/

/-- The character of six bits. -/
def base64Char (n : ℕ) : Char :=
  if n < 26 then Char.ofNat (65 + n)
  else if n < 52 then Char.ofNat (71 + n)
  else if n < 62 then Char.ofNat (n - 4)
  else if n = 62 then '+'
  else '/'

/-- `base64.b64encode`. -/
def b64encode : List UInt8 → List Char
  | a :: b :: c :: rest =>
    base64Char (a.toNat / 4) :: base64Char (a.toNat % 4 * 16 + b.toNat / 16) ::
      base64Char (b.toNat % 16 * 4 + c.toNat / 64) :: base64Char (c.toNat % 64) :: b64encode rest
  | [a, b] =>
    [base64Char (a.toNat / 4), base64Char (a.toNat % 4 * 16 + b.toNat / 16),
      base64Char (b.toNat % 16 * 4), '=']
  | [a] => [base64Char (a.toNat / 4), base64Char (a.toNat % 4 * 16), '=', '=']
  | [] => []

/-! ### Slices -/

section Chunks

variable {α : Type*}

/-- `[xs[offset : offset + n] for offset in range(0, len(xs), n)]`. -/
def chunks (n : ℕ) (xs : List α) : List (List α) :=
  (List.range ((xs.length + n - 1) / n)).map fun i => (xs.drop (i * n)).take n

theorem ne_nil_of_mem_chunks {n : ℕ} (hn : 0 < n) {xs chunk : List α} (h : chunk ∈ chunks n xs) :
    chunk ≠ [] := by
  obtain ⟨i, hi, rfl⟩ := List.mem_map.1 h
  have hmul : (i + 1) * n ≤ xs.length + n - 1 :=
    (Nat.le_div_iff_mul_le hn).1 (List.mem_range.1 hi)
  rw [Nat.succ_mul] at hmul
  rw [Ne, List.take_eq_nil_iff, List.drop_eq_nil_iff]
  omega

theorem flatten_take_chunks (n : ℕ) (xs : List α) (k : ℕ) :
    ((List.range k).map fun i => (xs.drop (i * n)).take n).flatten = xs.take (k * n) := by
  induction k with
  | zero => simp
  | succ k ih =>
    rw [List.range_succ, List.map_append, List.flatten_append, ih, List.map_singleton,
      List.flatten_singleton, Nat.succ_mul, List.take_add]

/-- **The slices together are the list.** -/
theorem flatten_chunks {n : ℕ} (hn : 0 < n) (xs : List α) : (chunks n xs).flatten = xs := by
  rw [chunks, flatten_take_chunks]
  refine List.take_of_length_le ?_
  have := Nat.div_add_mod (xs.length + n - 1) n
  have := Nat.mod_lt (xs.length + n - 1) hn
  rw [Nat.mul_comm]
  omega

theorem slice_flatten {n : ℕ} {pieces : List (List α)} (h : ∀ piece ∈ pieces, piece.length = n)
    {i : ℕ} (hi : i < pieces.length) : (pieces.flatten.drop (i * n)).take n = pieces[i] := by
  induction pieces generalizing i with
  | nil => cases hi
  | cons piece pieces ih =>
    rw [List.forall_mem_cons] at h
    cases i with
    | zero =>
      rw [Nat.zero_mul, List.drop_zero, List.flatten_cons]
      exact List.take_left' h.1
    | succ i =>
      have hdrop : (piece ++ pieces.flatten).drop ((i + 1) * n) = pieces.flatten.drop (i * n) := by
        rw [Nat.succ_mul, Nat.add_comm, ← List.drop_drop, List.drop_left' h.1]
      rw [List.flatten_cons, hdrop]
      exact ih h.2 (Nat.succ_lt_succ_iff.1 hi)

/-- **Slices of one length are cut again.** -/
theorem chunks_flatten {n : ℕ} (hn : 0 < n) {pieces : List (List α)}
    (h : ∀ piece ∈ pieces, piece.length = n) : chunks n pieces.flatten = pieces := by
  have hlength : pieces.flatten.length = pieces.length * n := by
    rw [List.length_flatten, List.map_congr_left h, List.map_const', List.sum_replicate_nat]
  have hcount : (pieces.flatten.length + n - 1) / n = pieces.length := by
    rw [hlength, Nat.add_sub_assoc hn, Nat.mul_comm, Nat.mul_add_div hn,
      Nat.div_eq_of_lt (by omega), Nat.add_zero]
  rw [chunks, hcount]
  refine List.ext_getElem (by simp) fun i _ hi => ?_
  rw [List.getElem_map, List.getElem_range]
  exact slice_flatten h hi

end Chunks

end Py

import K8Labs.Python.Json

/-!
# The codec `unicode_escape`

`bytes(text, "utf-8").decode("unicode_escape")`: the escapes of string literals are replaced, and
every other byte becomes the character with its number.  `latin1` is the text after the first step,
a character for each byte.

Character names are looked up in the database of the interpreter, a parameter here.  A lone
surrogate becomes U+FFFD.
-/

namespace Py

/-- The bytes of a character in UTF-8. -/
def utf8 (c : Char) : List ℕ :=
  let n := c.toNat
  if n < 0x80 then [n]
  else if n < 0x800 then [0xc0 + n / 0x40, 0x80 + n % 0x40]
  else if n < 0x10000 then [0xe0 + n / 0x1000, 0x80 + n / 0x40 % 0x40, 0x80 + n % 0x40]
  else [0xf0 + n / 0x40000, 0x80 + n / 0x1000 % 0x40, 0x80 + n / 0x40 % 0x40, 0x80 + n % 0x40]

/-- The bytes of a character, each as the character with its number. -/
def latin1 (c : Char) : List Char := (utf8 c).map Char.ofNat

namespace UnicodeEscape

/-- `raise UnicodeDecodeError(reason)`. -/
def decodeError {α : Type*} (reason : String) : Except Exc α := .error ⟨.unicodeDecodeError, reason⟩

/-- The character with a number. -/
def character (n : ℕ) : Except Exc Char :=
  if 0x10ffff < n then decodeError "illegal Unicode character"
  else if 0xd800 ≤ n ∧ n ≤ 0xdfff then .ok (Char.ofNat 0xfffd)
  else .ok (Char.ofNat n)

/-- So many hexadecimal digits. -/
def hexEscape (digits : ℕ) (cs : List Char) (reason : String) :
    Except Exc (List Char × List Char) :=
  let ds := (cs.take digits).filterMap Json.hexDigit?
  if ds.length = digits then
    (character (ds.foldl (fun n d => 16 * n + d) 0)).map fun c => ([c], cs.drop digits)
  else decodeError reason

/-- An octal digit. -/
def isOctal (c : Char) : Bool := decide ('0' ≤ c) && decide (c ≤ '7')

/-- The escapes of one letter. -/
def letters : List (Char × ℕ) :=
  [('a', 7), ('b', 8), ('t', 9), ('n', 10), ('v', 11), ('f', 12), ('r', 13)]

section Decode

variable (named : List Char → Option Char)

/-- A character by its name. -/
def namedEscape : List Char → Except Exc (List Char × List Char)
  | '{' :: cs =>
    let name := cs.takeWhile (· != '}')
    match cs.dropWhile (· != '}'), named name with
    | _ :: rest, some c => .ok ([c], rest)
    | _ :: _, none => decodeError "unknown Unicode character name"
    | [], _ => decodeError "malformed \\N character escape"
  | _ => decodeError "malformed \\N character escape"

/-- What stands after a backslash: the characters it gives and the text after it. -/
def escape : List Char → Except Exc (List Char × List Char)
  | [] => decodeError "\\ at end of string"
  | c :: cs =>
    if c = '\n' then .ok ([], cs)
    else if c = '\\' ∨ c = '"' ∨ c.toNat = 39 then .ok ([c], cs)
    else
      match letters.lookup c with
      | some n => .ok ([Char.ofNat n], cs)
      | none =>
        if c = 'x' then hexEscape 2 cs "truncated \\xXX escape"
        else if c = 'u' then hexEscape 4 cs "truncated \\uXXXX escape"
        else if c = 'U' then hexEscape 8 cs "truncated \\UXXXXXXXX escape"
        else if c = 'N' then namedEscape named cs
        else if isOctal c then
          let ds := ((c :: cs).take 3).takeWhile isOctal
          (character (ds.foldl (fun n d => 8 * n + (d.toNat - 48)) 0)).map fun d =>
            ([d], (c :: cs).drop ds.length)
        else .ok (['\\', c], cs)

/-- The text decoded; the number bounds the steps. -/
def decodeFrom : ℕ → List Char → Except Exc (List Char)
  | 0, _ => .ok []
  | _ + 1, [] => .ok []
  | n + 1, c :: cs =>
    if c = '\\' then
      (escape named cs).bind fun (ds, rest) => (decodeFrom n rest).map (ds ++ ·)
    else (decodeFrom n cs).map (c :: ·)

/-- `decode("unicode_escape")`. -/
def decode (cs : List Char) : Except Exc (List Char) := decodeFrom named cs.length cs

end Decode

end UnicodeEscape

/-! ### ASCII -/

/-- The characters of ASCII. -/
def IsAscii (c : Char) : Prop := c.toNat < 128

instance (c : Char) : Decidable (IsAscii c) := inferInstanceAs (Decidable (_ < _))

theorem latin1_of_ascii {c : Char} (h : IsAscii c) : latin1 c = [c] := by
  unfold IsAscii at h
  rw [latin1, utf8, if_pos h, List.map_singleton, Char.ofNat_toNat]

theorem not_isAscii_ofNat : ∀ n < 256, 128 ≤ n → ¬ IsAscii (Char.ofNat n) := by decide +kernel

/-- A character outside ASCII becomes several, all outside ASCII. -/
theorem latin1_of_not_ascii {c : Char} (h : ¬ IsAscii c) :
    2 ≤ (latin1 c).length ∧ ∀ d ∈ latin1 c, ¬ IsAscii d := by
  have hc : c.toNat < 0x110000 := by
    rcases c.valid with h | h
    · exact lt_of_lt_of_le h (by decide)
    · exact h.2
  unfold IsAscii at h
  have hbytes : 2 ≤ (utf8 c).length ∧ ∀ n ∈ utf8 c, 128 ≤ n ∧ n < 256 := by
    unfold utf8
    dsimp only
    rw [if_neg h]
    split_ifs <;> simp <;> omega
  refine ⟨by simpa [latin1] using hbytes.1, fun d hd => ?_⟩
  obtain ⟨n, hn, rfl⟩ := List.mem_map.1 hd
  have := hbytes.2 n hn
  exact not_isAscii_ofNat n this.2 this.1

end Py

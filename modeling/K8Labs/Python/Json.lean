import K8Labs.Python.Value
import Mathlib.Data.List.Sort
import Mathlib.Data.String.Basic

/-!
# The `json` module

`dumps` and `loads` of the standard library on document values.  Text is a list of characters.

`dumps` has the two styles the cache uses: sorted keys with compact separators, and an indentation
of two.  `loads` is the scanner of the decoder: what is no JSON is a `JSONDecodeError`, an integer
literal beyond the limit on digits is a plain `ValueError`, and nesting beyond `depth` containers,
which stands for the interpreter's recursion limit, is a `RecursionError`.

Not modelled: the position in the message of a decoding error; lone surrogates, which a `String`
cannot hold, are read as U+FFFD; a float literal is read exactly, also when it is too large for a
float.
-/

namespace Py

namespace Json

/-! ### Writing -/

/-- `sort_keys` with separators `(",", ":")`, `sort_keys` alone, or `indent=2`. -/
inductive Style where
  | compact
  | spaced
  | indented
  deriving DecidableEq

/-- A four-digit hexadecimal escape. -/
def hexEscape (n : ℕ) : List Char :=
  '\\' :: 'u' :: [n / 4096, n / 256 % 16, n / 16 % 16, n % 16].map Nat.digitChar

/-- One character of a string, escaped to ASCII. -/
def escapeChar (c : Char) : List Char :=
  if c = '"' then ['\\', '"']
  else if c = '\\' then ['\\', '\\']
  else if c = '\n' then ['\\', 'n']
  else if c = '\r' then ['\\', 'r']
  else if c = '\t' then ['\\', 't']
  else if c.toNat = 12 then ['\\', 'f']
  else if c.toNat = 8 then ['\\', 'b']
  else if 32 ≤ c.toNat ∧ c.toNat < 127 then [c]
  else if c.toNat < 0x10000 then hexEscape c.toNat
  else
    let n := c.toNat - 0x10000
    hexEscape (0xd800 + n / 0x400) ++ hexEscape (0xdc00 + n % 0x400)

/-- `py_encode_basestring_ascii`. -/
def encodeString (s : String) : List Char := '"' :: (s.toList.flatMap escapeChar ++ ['"'])

/-- An integer, within the limit on digits. -/
def encodeInt (n : ℤ) : Except Exc (List Char) :=
  if (natDigits n.natAbs).length > maxIntDigits then
    valueError "Exceeds the limit (4300 digits) for integer string conversion"
  else .ok (if n < 0 then '-' :: natDigits n.natAbs else natDigits n.natAbs)

/-- A float. -/
def encodeFloat : Float → List Char
  | .fin q => (floatText q).toList
  | .inf => "Infinity".toList
  | .negInf => "-Infinity".toList
  | .nan => "NaN".toList

/-- A scalar as a value. -/
def encodeScalar : Scalar → Except Exc (List Char)
  | .none => .ok "null".toList
  | .bool b => .ok (if b then "true".toList else "false".toList)
  | .int n => encodeInt n
  | .float f => .ok (encodeFloat f)
  | .str s => .ok (encodeString s)
  | .stamp _ => typeError "Object is not JSON serializable"

/-- A scalar as a key: what is no string is written as one. -/
def encodeKey : Scalar → Except Exc (List Char)
  | .str s => .ok (encodeString s)
  | .stamp _ => typeError "keys must be str, int, float, bool or None"
  | k => (encodeScalar k).map fun cs => '"' :: (cs ++ ['"'])

/-- The text between a bracket and the elements. -/
def Style.newline (style : Style) (level : ℕ) : List Char :=
  match style with
  | .compact => []
  | .spaced => []
  | .indented => '\n' :: List.replicate (2 * level) ' '

/-- The text after a comma. -/
def Style.separator (style : Style) (level : ℕ) : List Char :=
  match style with
  | .spaced => [' ']
  | _ => style.newline level

/-- The text between a key and its value. -/
def Style.colon : Style → List Char
  | .compact => [':']
  | .spaced => [':', ' ']
  | .indented => [':', ' ']

mutual

/-- The encoder at a level of indentation, with `depth` more containers allowed. -/
def encode (style : Style) : Value → ℕ → ℕ → Except Exc (List Char)
  | .scalar s, _, _ => encodeScalar s
  | .list _, _, 0 => .error ⟨.recursionError, "maximum recursion depth exceeded"⟩
  | .dict _, _, 0 => .error ⟨.recursionError, "maximum recursion depth exceeded"⟩
  | .list [], _, _ + 1 => .ok ['[', ']']
  | .dict [], _, _ + 1 => .ok ['{', '}']
  | .list (x :: xs), level, depth + 1 =>
    (encode style x (level + 1) depth).bind fun first =>
    (encodeTail style xs (level + 1) depth).map fun rest =>
      '[' :: (style.newline (level + 1) ++ first ++ rest ++ style.newline level ++ [']'])
  | .dict ((k, v) :: items), level, depth + 1 =>
    (encodeKey k).bind fun key =>
    (encode style v (level + 1) depth).bind fun value =>
    (encodeItems style items (level + 1) depth).map fun rest =>
      '{' :: (style.newline (level + 1) ++ key ++ style.colon ++ value ++ rest ++
        style.newline level ++ ['}'])

/-- The elements of a list after the first. -/
def encodeTail (style : Style) : List Value → ℕ → ℕ → Except Exc (List Char)
  | [], _, _ => .ok []
  | x :: xs, level, depth =>
    (encode style x level depth).bind fun cs =>
    (encodeTail style xs level depth).map fun rest => ',' :: (style.separator level ++ cs ++ rest)

/-- The items of a dictionary after the first. -/
def encodeItems (style : Style) : Items → ℕ → ℕ → Except Exc (List Char)
  | [], _, _ => .ok []
  | (k, v) :: items, level, depth =>
    (encodeKey k).bind fun key =>
    (encode style v level depth).bind fun value =>
    (encodeItems style items level depth).map fun rest =>
      ',' :: (style.separator level ++ key ++ style.colon ++ value ++ rest)

end

/-- `sorted` on the items of a dictionary; strings and numbers do not compare. -/
def sortItems (items : Items) : Except Exc Items :=
  if items.length ≤ 1 then .ok items
  else if items.all fun item => match item.1 with | .str _ => true | _ => false then
    .ok (items.insertionSort fun a b => a.1.text ≤ b.1.text)
  else if items.all fun item => item.1.number.isSome then
    .ok (items.insertionSort fun a b =>
      ((a.1.number.getD .nan).le (b.1.number.getD .nan)) = true)
  else typeError "'<' not supported between instances"

mutual

/-- The value with the items of every dictionary in the order of their keys. -/
def sortKeys : Value → Except Exc Value
  | .scalar s => .ok (.scalar s)
  | .list xs => (sortKeysList xs).map .list
  | .dict items => (sortKeysItems items).bind fun sorted => (sortItems sorted).map .dict

/-- The elements of a list. -/
def sortKeysList : List Value → Except Exc (List Value)
  | [] => .ok []
  | x :: xs => (sortKeys x).bind fun y => (sortKeysList xs).map (y :: ·)

/-- The values of a dictionary. -/
def sortKeysItems : Items → Except Exc Items
  | [] => .ok []
  | (k, v) :: items => (sortKeys v).bind fun w => (sortKeysItems items).map ((k, w) :: ·)

end

/-- `json.dumps`. -/
def dumps (style : Style) (depth : ℕ) (v : Value) : Except Exc (List Char) :=
  match style with
  | .compact => (sortKeys v).bind fun sorted => encode .compact sorted 0 depth
  | .spaced => (sortKeys v).bind fun sorted => encode .spaced sorted 0 depth
  | .indented => encode .indented v 0 depth

/-! ### Reading -/

/-- `raise JSONDecodeError(message)`. -/
def decodeError {α : Type*} (message : String) : Except Exc α := .error ⟨.jsonDecodeError, message⟩

/-- White space of JSON. -/
def isJsonSpace (c : Char) : Bool := c == ' ' || c == '\t' || c == '\n' || c == '\r'

/-- The text after white space. -/
def skipSpace (cs : List Char) : List Char := cs.dropWhile isJsonSpace

/-- The value of a hexadecimal digit. -/
def hexDigit? (c : Char) : Option ℕ :=
  if c.isDigit then some (c.toNat - 48)
  else if 'a' ≤ c ∧ c ≤ 'f' then some (c.toNat - 87)
  else if 'A' ≤ c ∧ c ≤ 'F' then some (c.toNat - 55)
  else none

/-- Four hexadecimal digits and the text after them. -/
def hex4? : List Char → Option (ℕ × List Char)
  | a :: b :: c :: d :: rest =>
    match hexDigit? a, hexDigit? b, hexDigit? c, hexDigit? d with
    | some a, some b, some c, some d => some (((a * 16 + b) * 16 + c) * 16 + d, rest)
    | _, _, _, _ => none
  | _ => none

/-- The low surrogate after a high one. -/
def lowSurrogate? : List Char → Option (ℕ × List Char)
  | '\\' :: 'u' :: cs =>
    match hex4? cs with
    | some (low, rest) => if 0xdc00 ≤ low ∧ low ≤ 0xdfff then some (low, rest) else none
    | none => none
  | _ => none

/-- The escape after a backslash: its character and the text after it. -/
def unescape : List Char → Except Exc (Char × List Char)
  | [] => decodeError "Unterminated string starting at"
  | 'u' :: cs =>
    match hex4? cs with
    | none => decodeError "Invalid \\uXXXX escape"
    | some (n, rest) =>
      if 0xd800 ≤ n ∧ n ≤ 0xdbff then
        match lowSurrogate? rest with
        | some (low, rest') =>
          .ok (Char.ofNat (0x10000 + (n - 0xd800) * 0x400 + (low - 0xdc00)), rest')
        | none => .ok (Char.ofNat 0xfffd, rest)
      else if 0xdc00 ≤ n ∧ n ≤ 0xdfff then .ok (Char.ofNat 0xfffd, rest)
      else .ok (Char.ofNat n, rest)
  | c :: cs =>
    if c = '"' ∨ c = '\\' ∨ c = '/' then .ok (c, cs)
    else if c = 'b' then .ok (Char.ofNat 8, cs)
    else if c = 'f' then .ok (Char.ofNat 12, cs)
    else if c = 'n' then .ok ('\n', cs)
    else if c = 'r' then .ok ('\r', cs)
    else if c = 't' then .ok ('\t', cs)
    else decodeError "Invalid \\escape"

/-- One character of a string, `none` at the closing quote. -/
def nextChar : List Char → Except Exc (Option Char × List Char)
  | [] => decodeError "Unterminated string starting at"
  | c :: cs =>
    if c = '"' then .ok (none, cs)
    else if c = '\\' then (unescape cs).map fun (d, rest) => (some d, rest)
    else if c.toNat < 32 then decodeError "Invalid control character at"
    else .ok (some c, cs)

/-- `scanstring`, after the opening quote; the number bounds the characters. -/
def scanString : ℕ → List Char → Except Exc (List Char × List Char)
  | 0, _ => decodeError "Unterminated string starting at"
  | n + 1, cs =>
    (nextChar cs).bind fun next =>
      match next with
      | (none, rest) => .ok ([], rest)
      | (some c, rest) => (scanString n rest).map fun (s, rest') => (c :: s, rest')

/-- The digits after a point, when there is one before a digit, and the text after them. -/
def fraction : List Char → List Char × List Char
  | '.' :: cs =>
    if cs.takeWhile Char.isDigit = [] then ([], '.' :: cs)
    else (cs.takeWhile Char.isDigit, cs.dropWhile Char.isDigit)
  | cs => ([], cs)

/-- The exponent, when the mark stands before digits, and the text after it. -/
def exponent : List Char → Option ℤ × List Char
  | e :: cs =>
    if e = 'e' ∨ e = 'E' then
      let (negative, ds) := splitSign cs
      if ds.takeWhile Char.isDigit = [] then (none, e :: cs)
      else
        let n : ℤ := digitsValue (ds.takeWhile Char.isDigit)
        (some (if negative then -n else n), ds.dropWhile Char.isDigit)
    else (none, e :: cs)
  | [] => (none, [])

/-- A number without its sign. -/
def scanMagnitude (cs : List Char) : Except Exc ((ℕ ⊕ ℚ) × List Char) :=
  let whole := if cs.head? = some '0' then ['0'] else cs.takeWhile Char.isDigit
  if whole = [] then decodeError "Expecting value"
  else
    let (frac, rest) := fraction (cs.drop whole.length)
    match frac, exponent rest with
    | [], (none, rest') => (intOfDigits whole).map fun n => (.inl n, rest')
    | frac, (e, rest') =>
      .ok (.inr ((digitsValue (whole ++ frac) : ℚ) * (10 : ℚ) ^ (e.getD 0 - frac.length)), rest')

/-- `match_number`. -/
def scanNumber (cs : List Char) : Except Exc (Value × List Char) :=
  match cs with
  | '-' :: cs => (scanMagnitude cs).map fun (m, rest) =>
      (match m with
        | .inl n => .int (-(n : ℤ))
        | .inr q => .float (.fin (-q)), rest)
  | cs => (scanMagnitude cs).map fun (m, rest) =>
      (match m with
        | .inl n => .int n
        | .inr q => .float (.fin q), rest)

/-- The constants. -/
def constants : List (String × Value) :=
  [("null", .none), ("true", .bool true), ("false", .bool false), ("NaN", .float .nan),
    ("Infinity", .float .inf), ("-Infinity", .float .negInf)]

/-- A constant or a number. -/
def scanScalar (cs : List Char) : Except Exc (Value × List Char) :=
  match constants.findSome? fun c => (c.1.toList.isPrefixOf? cs).map fun rest => (c.2, rest) with
  | some found => .ok found
  | none => scanNumber cs

/-- Assigning to a key: an existing one keeps its place. -/
def assign (items : Items) (key : String) (v : Value) : Items :=
  if (items.lookup key).isSome then
    items.map fun item => if item.1 = .str key then (item.1, v) else item
  else items ++ [(.str key, v)]

section Containers

variable (scan : List Char → Except Exc (Value × List Char))

/-- The elements of an array, after its bracket or a comma and white space. -/
def scanElements : ℕ → List Char → List Value → Except Exc (Value × List Char)
  | 0, _, _ => decodeError "Expecting value"
  | n + 1, cs, done =>
    (scan cs).bind fun (v, rest) =>
      match skipSpace rest with
      | ',' :: rest' => scanElements n (skipSpace rest') (done ++ [v])
      | ']' :: rest' => .ok (.list (done ++ [v]), rest')
      | _ => decodeError "Expecting ',' delimiter"

/-- The members of an object, after its brace or a comma and white space. -/
def scanMembers : ℕ → List Char → Items → Except Exc (Value × List Char)
  | 0, _, _ => decodeError "Expecting property name enclosed in double quotes"
  | n + 1, cs, done =>
    match cs with
    | '"' :: rest =>
      (scanString rest.length rest).bind fun (key, rest) =>
        match skipSpace rest with
        | ':' :: rest =>
          (scan (skipSpace rest)).bind fun (v, rest) =>
            let items := assign done (String.ofList key) v
            match skipSpace rest with
            | ',' :: rest => scanMembers n (skipSpace rest) items
            | '}' :: rest => .ok (.dict items, rest)
            | _ => decodeError "Expecting ',' delimiter"
        | _ => decodeError "Expecting ':' delimiter"
    | _ => decodeError "Expecting property name enclosed in double quotes"

end Containers

/-- `scan_once`, with `depth` more containers allowed. -/
def scanOnce : ℕ → List Char → Except Exc (Value × List Char)
  | _, '"' :: cs =>
    (scanString cs.length cs).map fun (s, rest) => (.str (String.ofList s), rest)
  | 0, '[' :: _ => .error ⟨.recursionError, "maximum recursion depth exceeded"⟩
  | 0, '{' :: _ => .error ⟨.recursionError, "maximum recursion depth exceeded"⟩
  | depth + 1, '[' :: cs =>
    match skipSpace cs with
    | ']' :: rest => .ok (.list [], rest)
    | cs' => scanElements (scanOnce depth) cs'.length cs' []
  | depth + 1, '{' :: cs =>
    match skipSpace cs with
    | '}' :: rest => .ok (.dict [], rest)
    | cs' => scanMembers (scanOnce depth) cs'.length cs' []
  | _, cs => scanScalar cs

/-- `json.loads`. -/
def loads (depth : ℕ) (cs : List Char) : Except Exc Value :=
  if cs.head? = some (Char.ofNat 0xfeff) then
    decodeError "Unexpected UTF-8 BOM (decode using utf-8-sig)"
  else
    (scanOnce depth (skipSpace cs)).bind fun (v, rest) =>
      if skipSpace rest = [] then .ok v else decodeError "Extra data"

/-! ### What reading raises -/

/-- A decoding error, an integer with too many digits, or too many nested containers. -/
def loadClasses : List ExcClass := [.jsonDecodeError, .valueError, .recursionError]

section Raises

variable {α : Type*}

theorem raises_decodeError (message : String) :
    Raises loadClasses (decodeError message : Except Exc α) :=
  raises_error (by decide)

theorem raises_unescape (cs : List Char) : Raises loadClasses (unescape cs) := by
  unfold unescape
  split
  · exact raises_decodeError _
  · split
    · exact raises_decodeError _
    · split_ifs
      · split <;> exact raises_ok _
      · exact raises_ok _
      · exact raises_ok _
  · split_ifs
    iterate 6 exact raises_ok _
    exact raises_decodeError _

theorem raises_nextChar (cs : List Char) : Raises loadClasses (nextChar cs) := by
  unfold nextChar
  split
  · exact raises_decodeError _
  · split_ifs
    · exact raises_ok _
    · exact (raises_unescape _).map
    · exact raises_decodeError _
    · exact raises_ok _

theorem raises_scanString (n : ℕ) (cs : List Char) : Raises loadClasses (scanString n cs) := by
  induction n generalizing cs with
  | zero => exact raises_decodeError _
  | succ n ih =>
    refine (raises_nextChar cs).bind fun next => ?_
    split
    · exact raises_ok _
    · exact (ih _).map

theorem raises_scanMagnitude (cs : List Char) : Raises loadClasses (scanMagnitude cs) := by
  have hint : ∀ ds, Raises loadClasses (intOfDigits ds) := by
    intro ds
    unfold intOfDigits
    split_ifs
    · exact raises_error (by decide)
    · exact raises_ok _
  unfold scanMagnitude
  simp only
  split_ifs
  · exact raises_decodeError _
  · split
    · exact (hint _).map
    · exact raises_ok _
  · exact raises_decodeError _
  · split
    · exact (hint _).map
    · exact raises_ok _

theorem raises_scanScalar (cs : List Char) : Raises loadClasses (scanScalar cs) := by
  unfold scanScalar scanNumber
  split
  · exact raises_ok _
  · split <;> exact (raises_scanMagnitude _).map

variable {scan : List Char → Except Exc (Value × List Char)}

theorem raises_scanElements (hscan : ∀ cs, Raises loadClasses (scan cs)) (n : ℕ) (cs : List Char)
    (done : List Value) : Raises loadClasses (scanElements scan n cs done) := by
  induction n generalizing cs done with
  | zero => exact raises_decodeError _
  | succ n ih =>
    refine (hscan cs).bind fun next => ?_
    simp only
    split
    · exact ih _ _
    · exact raises_ok _
    · exact raises_decodeError _

theorem raises_scanMembers (hscan : ∀ cs, Raises loadClasses (scan cs)) (n : ℕ) (cs : List Char)
    (done : Items) : Raises loadClasses (scanMembers scan n cs done) := by
  induction n generalizing cs done with
  | zero => exact raises_decodeError _
  | succ n ih =>
    unfold scanMembers
    split
    · refine (raises_scanString _ _).bind fun next => ?_
      simp only
      split
      · refine (hscan _).bind fun next => ?_
        split
        · exact ih _ _
        · exact raises_ok _
        · exact raises_decodeError _
      · exact raises_decodeError _
    · exact raises_decodeError _

theorem raises_scanOnce (depth : ℕ) (cs : List Char) : Raises loadClasses (scanOnce depth cs) := by
  induction depth generalizing cs with
  | zero =>
    unfold scanOnce
    split
    · exact (raises_scanString _ _).map
    · exact raises_error (by decide)
    · exact raises_error (by decide)
    · contradiction
    · contradiction
    · exact raises_scanScalar _
  | succ depth ih =>
    unfold scanOnce
    split
    · exact (raises_scanString _ _).map
    · contradiction
    · contradiction
    · rename_i heq
      cases heq
      split
      · exact raises_ok _
      · exact raises_scanElements ih _ _ _
    · rename_i heq
      cases heq
      split
      · exact raises_ok _
      · exact raises_scanMembers ih _ _ _
    · exact raises_scanScalar _

/-- Reading a document raises nothing else. -/
theorem raises_loads (depth : ℕ) (cs : List Char) : Raises loadClasses (loads depth cs) := by
  unfold loads
  split_ifs
  · exact raises_decodeError _
  · refine (raises_scanOnce _ _).bind fun next => ?_
    simp only
    split_ifs
    · exact raises_ok _
    · exact raises_decodeError _

end Raises

end Json

end Py

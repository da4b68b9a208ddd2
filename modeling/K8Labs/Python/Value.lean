import K8Labs.Python.Str

/-!
# Python values read from JSON and YAML documents

`Value` is what `json.loads` and `yaml.safe_load` build: scalars, lists and dictionaries.  The keys
of a dictionary are scalars (a JSON document has string keys only); the items stand in insertion
order.  `stamp` is a scalar that only YAML has (a date, a time, binary data).

`Value.eq` is Python's `==`: numbers of different types are compared by value, a float that is not
a number differs from everything, and dictionaries are compared without regard to order.
-/

namespace Py

/-- A scalar, also the key of a dictionary. -/
inductive Scalar where
  | none
  | bool (b : Bool)
  | int (n : ℤ)
  | float (f : Float)
  | str (s : String)
  | stamp (text : String)
  deriving DecidableEq

/-- A document value. -/
inductive Value where
  | scalar (s : Scalar)
  | list (xs : List Value)
  | dict (items : List (Scalar × Value))

/-- The items of a dictionary. -/
abbrev Items := List (Scalar × Value)

/-- The least integer that rounds beyond the largest float. -/
@[irreducible] def floatBound : ℕ := 2 ^ 1024 - 2 ^ 970

/-- `float(n)` of an integer. -/
def floatOfInt (n : ℤ) : Except Exc Float :=
  if n.natAbs < floatBound then .ok (.fin n)
  else .error ⟨.overflowError, "int too large to convert to float"⟩

namespace Scalar

/-- The number a numeric scalar stands for. -/
def number : Scalar → Option Float
  | bool b => some (.fin (if b then 1 else 0))
  | int n => some (.fin n)
  | float f => some f
  | _ => Option.none

/-- `==` on scalars. -/
def eq : Scalar → Scalar → Bool
  | .none, .none => true
  | str s, str t => s == t
  | stamp s, stamp t => s == t
  | a, b =>
    match a.number, b.number with
    | some x, some y => x == y && x != .nan
    | _, _ => false

end Scalar

namespace Value

@[match_pattern] abbrev none : Value := .scalar .none
@[match_pattern] abbrev bool (b : Bool) : Value := .scalar (.bool b)
@[match_pattern] abbrev int (n : ℤ) : Value := .scalar (.int n)
@[match_pattern] abbrev float (f : Float) : Value := .scalar (.float f)
@[match_pattern] abbrev str (s : String) : Value := .scalar (.str s)

end Value

/-- `d[key]` for a string key, `none` when the key is missing. -/
def Items.lookup (items : Items) (key : String) : Option Value := List.lookup (.str key) items

/-- `d.get(key)`. -/
def Items.get (items : Items) (key : String) : Value := (items.lookup key).getD .none

namespace Value

/-- The items, when `isinstance(v, dict)`. -/
def asDict : Value → Option Items
  | .dict items => some items
  | _ => Option.none

/-- The elements, when `isinstance(v, list)`. -/
def asList : Value → Option (List Value)
  | .list xs => some xs
  | _ => Option.none

/-- The string, when `isinstance(v, str)`. -/
def asStr : Value → Option String
  | .scalar (.str s) => some s
  | _ => Option.none

@[simp] theorem asDict_eq_some {v : Value} {items : Items} :
    v.asDict = some items ↔ v = .dict items := by
  cases v <;> simp [asDict]

@[simp] theorem asList_eq_some {v : Value} {xs : List Value} :
    v.asList = some xs ↔ v = .list xs := by
  cases v <;> simp [asList]

@[simp] theorem asStr_eq_some {v : Value} {s : String} : v.asStr = some s ↔ v = .str s := by
  unfold asStr
  split <;> simp_all

end Value

/-- `repr` of a string: single quotes unless it has those and no double ones.  Characters outside
ASCII are taken as printable. -/
def quoted (s : String) : String :=
  let quote := if s.toList.contains '\'' && !s.toList.contains '"' then '"' else '\''
  let hex := fun n => String.ofList (Nat.toDigits 16 n)
  let escape := fun (c : Char) =>
    if c = '\\' then "\\\\"
    else if c = quote then "\\" ++ c.toString
    else if c = '\n' then "\\n"
    else if c = '\r' then "\\r"
    else if c = '\t' then "\\t"
    else if c.toNat < 16 then "\\x0" ++ hex c.toNat
    else if c.toNat < 32 || c.toNat = 127 then "\\x" ++ hex c.toNat
    else c.toString
  quote.toString ++ String.join (s.toList.map escape) ++ quote.toString

namespace Scalar

/-- `str` of a scalar. -/
def text : Scalar → String
  | .none => "None"
  | bool b => if b then "True" else "False"
  | int n => toString n
  | float (.fin q) => floatText q
  | float f => f.nonFiniteText
  | str s => s
  | stamp s => s

/-- `repr` of a scalar. -/
def repr : Scalar → String
  | str s => quoted s
  | s => s.text

end Scalar

namespace Value

mutual

/-- `repr`. -/
def repr : Value → String
  | .scalar s => s.repr
  | .list xs => "[" ++ reprList xs ++ "]"
  | .dict items => "\x7b" ++ reprItems items ++ "\x7d"

/-- The elements of a list, separated by commas. -/
def reprList : List Value → String
  | [] => ""
  | [x] => repr x
  | x :: xs => repr x ++ ", " ++ reprList xs

/-- The items of a dictionary, separated by commas. -/
def reprItems : Items → String
  | [] => ""
  | [(k, v)] => k.repr ++ ": " ++ repr v
  | (k, v) :: items => k.repr ++ ": " ++ repr v ++ ", " ++ reprItems items

end

/-- `str`. -/
def text : Value → String
  | .scalar s => s.text
  | v => v.repr

mutual

/-- `==`. -/
def eq : Value → Value → Bool
  | .scalar a, .scalar b => a.eq b
  | .list xs, .list ys => eqList xs ys
  | .dict xs, .dict ys => xs.length == ys.length && eqItems xs ys
  | _, _ => false

/-- `==` on lists, element by element. -/
def eqList : List Value → List Value → Bool
  | [], [] => true
  | x :: xs, y :: ys => eq x y && eqList xs ys
  | _, _ => false

/-- Every item of the first dictionary is in the second. -/
def eqItems : Items → Items → Bool
  | [], _ => true
  | (k, v) :: xs, ys =>
    (match ys.find? fun p => k.eq p.1 with
      | some (_, w) => eq v w
      | .none => false) && eqItems xs ys

end

theorem eq_str_iff {v : Value} {s : String} : v.eq (.str s) = true ↔ v = .str s := by
  cases v with
  | scalar a => cases a <;> simp [eq, Scalar.eq, Scalar.number]
  | list xs => simp [eq]
  | dict items => simp [eq]

/-- The truth value. -/
def truthy : Value → Bool
  | .scalar .none => false
  | .scalar (.bool b) => b
  | .scalar (.int n) => n != 0
  | .scalar (.float f) => f != .fin 0
  | .scalar (.str s) => s != ""
  | .scalar (.stamp _) => true
  | .list xs => !xs.isEmpty
  | .dict items => !items.isEmpty

/-- `v or w`. -/
def orElse (v w : Value) : Value := if v.truthy then v else w

/-- `key in v` for a string key. -/
def contains (key : String) : Value → Except Exc Bool
  | .dict items => .ok (Items.lookup items key).isSome
  | .list xs => .ok (xs.any (eq (.str key)))
  | .scalar (.str s) => .ok (s.toList.tails.any key.toList.isPrefixOf)
  | _ => typeError "argument is not iterable"

/-- `v[key]` for a string key. -/
def index (key : String) : Value → Except Exc Value
  | .dict items =>
    match Items.lookup items key with
    | some v => .ok v
    | Option.none => .error ⟨.keyError, key⟩
  | .list _ => typeError "list indices must be integers or slices, not str"
  | .scalar (.str _) => typeError "string indices must be integers, not 'str'"
  | _ => typeError "object is not subscriptable"

/-- `int(v)`. -/
def toInt : Value → Except Exc ℤ
  | .scalar (.bool b) => .ok (if b then 1 else 0)
  | .scalar (.int n) => .ok n
  | .scalar (.float (.fin q)) => .ok (truncate q)
  | .scalar (.float .nan) => valueError "cannot convert float NaN to integer"
  | .scalar (.float _) => .error ⟨.overflowError, "cannot convert float infinity to integer"⟩
  | .scalar (.str s) => parseInt s
  | _ => typeError "int() argument must be a string, a bytes-like object or a real number"

/-- `float(v)`. -/
def toFloat : Value → Except Exc Float
  | .scalar (.bool b) => .ok (.fin (if b then 1 else 0))
  | .scalar (.int n) => floatOfInt n
  | .scalar (.float f) => .ok f
  | .scalar (.str s) => parseFloat s
  | _ => typeError "float() argument must be a string or a real number"

end Value

end Py

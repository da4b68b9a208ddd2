import K8Labs.Python.Value
import Mathlib.Tactic.TypeStar

/-!
# Documents in block style

What `yaml.dump` writes for mappings and lists of strings that need no quotes, with booleans and
integers between them; nothing in them is empty.  The results about the programs that write YAML take
its writer as a parameter, and their samples take this one.
-/

namespace Py

/-- A scalar that needs no quotes. -/
def blockScalar : Scalar → List Char
  | .bool b => if b then "true".toList else "false".toList
  | .none => "null".toList
  | s => s.text.toList

/-- The lines of an item, behind its dash. -/
def dashed : List (List Char) → List (List Char)
  | [] => []
  | line :: lines => ('-' :: ' ' :: line) :: lines.map fun line => ' ' :: ' ' :: line

/-- The lines of an entry, for those of its value. -/
def keyed (key : List Char) (v : Value) (lines : List (List Char)) : List (List Char) :=
  match v with
  | .scalar _ => lines.map fun line => key ++ ':' :: ' ' :: line
  | .list _ => (key ++ [':']) :: lines
  | .dict _ => (key ++ [':']) :: lines.map fun line => ' ' :: ' ' :: line

mutual

/-- The lines of a value. -/
def blockLines : Value → List (List Char)
  | .scalar s => [blockScalar s]
  | .list xs => itemLines xs
  | .dict items => entryLines items

/-- The items of a list, which are not indented. -/
def itemLines : List Value → List (List Char)
  | [] => []
  | x :: xs => dashed (blockLines x) ++ itemLines xs

/-- The entries of a mapping. -/
def entryLines : Items → List (List Char)
  | [] => []
  | (key, v) :: items => keyed (blockScalar key) v (blockLines v) ++ entryLines items

end

/-- The text of a document. -/
def blockChars (v : Value) : List Char := (blockLines v).flatMap (· ++ ['\n'])

/-- The text of several documents, one behind the other. -/
def blockTexts (documents : List Value) : List Char :=
  List.intercalate "---\n".toList (documents.map blockChars)

/-- `yaml.dump`. -/
def blockText (v : Value) : String := String.ofList (blockChars v)

example : blockTexts [.dict [(.str "a", .list [.str "b", .dict [(.str "c", .bool true),
    (.str "d", .dict [(.str "e", .int 1)])]])], .dict [(.str "f", .str "g")]] =
    "a:\n- b\n- c: true\n  d:\n    e: 1\n---\nf: g\n".toList := by
  decide +kernel

end Py

import Mathlib.Data.List.Basic

/-!
# Lower case

`str.lower`.  Letters outside ASCII are left as they are, except the two whose lower case has an
ASCII letter in it.
-/

namespace Py

/-- The lower case of one character. -/
def lowerChar (c : Char) : List Char :=
  if c.toNat = 0x130 then ['i', Char.ofNat 0x307]
  else if c.toNat = 0x212a then ['k']
  else [c.toLower]

/-- `str.lower`. -/
def lower (s : String) : String := String.ofList (s.toList.flatMap lowerChar)

end Py

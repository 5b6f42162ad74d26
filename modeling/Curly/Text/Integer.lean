/-!
# Integers in text

An integer is written in ASCII digits, with a sign before them if there is one.
A sign without digits is no integer.
-/

namespace Curly.Text

/-- The value of a text of digits, of which there must be one. -/
def digits? (text : List Char) : Option Nat :=
  if text.isEmpty || !text.all Char.isDigit then none
  else some (text.foldl (fun n c => 10 * n + (c.toNat - '0'.toNat)) 0)

/-- A natural number, before which a plus may stand. -/
def natural? : List Char → Option Nat
  | '+' :: text => digits? text
  | text => digits? text

/-- An integer, before which either sign may stand. -/
def integer? : List Char → Option Int
  | '-' :: text => (digits? text).map fun n => -(n : Int)
  | text => (natural? text).map fun n => (n : Int)

def sameIgnoringCase (a b : String) : Bool :=
  a.toList.map Char.toLower == b.toList.map Char.toLower

end Curly.Text

import Curly.Entries
import Curly.Text.Integer

/-!
# Keys

A key of a mapping is a text or an integer of one of two widths. A text finds
an entry by any of the three, in this order.
-/

namespace Curly

inductive Key where
  | string (s : String)
  | int32 (n : Int32)
  | int64 (n : Int64)
deriving DecidableEq, Repr

namespace Key

def text : Key → String
  | .string s => s
  | .int32 n => Int.repr n.toInt
  | .int64 n => Int.repr n.toInt

def int32? (text : String) : Option Key :=
  match Text.integer? text.toList with
  | some n =>
    if Int32.minValue.toInt ≤ n && n ≤ Int32.maxValue.toInt then some (.int32 (.ofInt n)) else none
  | none => none

def int64? (text : String) : Option Key :=
  match Text.integer? text.toList with
  | some n =>
    if Int64.minValue.toInt ≤ n && n ≤ Int64.maxValue.toInt then some (.int64 (.ofInt n)) else none
  | none => none

/-- The value whose key matches the text: as a text, then as an integer of 32
bits, then as one of 64. -/
def lookup {α : Type} (text : String) (entries : List (Key × α)) : Option α :=
  valueAt (.string text) entries <|>
    (int32? text).bind (valueAt · entries) <|>
    (int64? text).bind (valueAt · entries)

end Key

end Curly

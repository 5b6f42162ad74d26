import Curly.Decimal.Layout

/-!
# Numbers

A number is an integer of 64 bits or a finite floating-point number. The module
reads one from its text and writes it. Reading a number with a point or an
exponent collects digits in a significand of 64 bits and scales it once by a
power of ten, so that the last bit may differ from the nearest value.
-/

namespace Curly

inductive Number where
  | natural (n : UInt64)
  | negative (n : Int64)
  /-- A finite floating-point number. -/
  | real (x : Float)

namespace Number

instance : Inhabited Number := ⟨.natural 0⟩

def ofNat (n : Nat) : Number :=
  .natural n.toUInt64

def ofInt64 (n : Int64) : Number :=
  if n < 0 then .negative n else .natural n.toInt.toNat.toUInt64

def ofFloat? (x : Float) : Option Number :=
  if x.isFinite then some (.real x) else none

def toFloat : Number → Float
  | .natural n => n.toFloat
  | .negative n => n.toFloat
  | .real x => x

def isZero (n : Number) : Bool :=
  n.toFloat == 0.0

/-- Equality as written: same kind and same number. -/
def identical : Number → Number → Bool
  | .natural a, .natural b => a == b
  | .negative a, .negative b => a == b
  | .real a, .real b => a == b
  | _, _ => false

/-- Equality of numbers, across kinds by their floating-point forms. -/
def same (a b : Number) : Bool :=
  a.identical b || a.toFloat == b.toFloat

/-! ## Writing -/

/-- Floating-point numbers are positional from a hundred-thousandth up to below
ten to the sixteenth, and always show that they are no integers. -/
def layout : Decimal.Layout where
  positional first := -5 ≤ first && first ≤ 15
  point := true
  tie := .toEven

def text : Number → String
  | .natural n => Decimal.digitsText n.toNat
  | .negative n => "-" ++ Decimal.digitsText n.toInt.natAbs
  | .real x => layout.text64 x

/-! ## Reading -/

def digitValue (c : Char) : Nat :=
  c.toNat - '0'.toNat

def naturalOf (digits : List Char) : Nat :=
  digits.foldl (fun n c => 10 * n + digitValue c) 0

/-- Appends digits to a significand as long as it stays below `2 ^ 64`. Gives
the significand, how many digits it took, and the text after them. -/
def collect : Nat → List Char → Nat × Nat × List Char
  | s, [] => (s, 0, [])
  | s, c :: cs =>
    if c.isDigit && 10 * s + digitValue c < UInt64.size then
      let (s', n, rest) := collect (10 * s + digitValue c) cs
      (s', n + 1, rest)
    else (s, 0, c :: cs)

/-- `x * 10 ^ e` by one multiplication or division, or by several divisions
where the power is out of range. Nothing if that overflows. -/
def scaled (x : Float) (e : Int) : Option Float :=
  if 0 ≤ e then
    if e ≤ 308 then
      let y := x * Float.ofScientific 1 false e.toNat
      if y.isInf then none else some y
    else if x == 0.0 then some x else none
  else if -308 ≤ e then some (x / Float.ofScientific 1 false (-e).toNat)
  else if x == 0.0 then some x
  else scaled (x / Float.ofScientific 1 false 308) (e + 308)
termination_by (-e).toNat

/-- The exponent that a text begins with, zero if there is none, and the text
after it. Nothing if the mark of an exponent is followed by no digit. -/
def readExponent : List Char → Option (Int × List Char)
  | c :: rest =>
    if c = 'e' || c = 'E' then
      let (minus, rest) :=
        match rest with
        | '-' :: rest => (true, rest)
        | '+' :: rest => (false, rest)
        | rest => (false, rest)
      let digits := rest.takeWhile Char.isDigit
      if digits.isEmpty then none
      else
        let n : Int := naturalOf digits
        some (if minus then -n else n, rest.dropWhile Char.isDigit)
    else some (0, c :: rest)
  | [] => some (0, [])

def hasExponent (text : List Char) : Bool :=
  text.head? = some 'e' || text.head? = some 'E'

/-- A number given by its significand, the digits dropped from it and the text
of fraction and exponent. -/
def readReal (minus : Bool) (significand dropped : Nat) (text : List Char) :
    Option (Number × List Char) := do
  let (significand, e, text) ←
    match text with
    | '.' :: fraction =>
      let (s, taken, rest) := collect significand fraction
      if fraction.head?.any Char.isDigit then
        some (s, (dropped : Int) - taken, rest.dropWhile Char.isDigit)
      else none
    | text => some (significand, (dropped : Int), text)
  let (exponent, rest) ← readExponent text
  let x ← scaled significand.toUInt64.toFloat (e + exponent)
  some (.real (if minus then -x else x), rest)

def readUnsigned (minus : Bool) (text : List Char) : Option (Number × List Char) :=
  match text with
  | [] => none
  | c :: cs =>
    if !c.isDigit || (c = '0' && cs.head?.any Char.isDigit) then none
    else
      let (significand, _, rest) := collect 0 text
      let dropped := rest.takeWhile Char.isDigit
      let tail := rest.dropWhile Char.isDigit
      if !dropped.isEmpty || tail.head? = some '.' || hasExponent tail then
        readReal minus significand dropped.length tail
      else if !minus then some (.natural significand.toUInt64, tail)
      else if significand = 0 || UInt64.size < 2 * significand then
        some (.real (-significand.toUInt64.toFloat), tail)
      else some (.negative (Int64.ofInt (-significand)), tail)

def read : List Char → Option (Number × List Char)
  | '-' :: text => readUnsigned true text
  | text => readUnsigned false text

def ofText? (text : List Char) : Option Number :=
  match read text with
  | some (n, []) => some n
  | _ => none

end Number

end Curly

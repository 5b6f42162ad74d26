import Curly.Decimal.Shortest

/-!
# Layout of decimals

How the digits of a floating-point number are set out. A format is a value of
`Layout`.
-/

namespace Curly.Decimal

structure Layout where
  /-- Whether a number is written without an exponent, by the exponent of its
  first digit. -/
  positional : Int → Bool
  /-- Whether a whole number without exponent keeps a zero behind the point. -/
  point : Bool
  tie : Tie

def zeros (n : Nat) : String :=
  String.ofList (List.replicate n '0')

def digitsText (n : Nat) : String :=
  String.ofList (Nat.toDigits 10 n)

def positionalText (point : Bool) (d : Scientific) : String :=
  let digits := Nat.toDigits 10 d.digits
  let places := (-d.exponent).toNat
  if places = 0 then
    digitsText d.digits ++ zeros d.exponent.toNat ++ if point then ".0" else ""
  else if places < digits.length then
    String.ofList (digits.take (digits.length - places)) ++ "." ++
      String.ofList (digits.drop (digits.length - places))
  else "0." ++ zeros (places - digits.length) ++ digitsText d.digits

/-- The decimal with one digit before the point and a signed exponent, `first`
being the exponent of that digit. -/
def scientificText (first : Int) (d : Scientific) : String :=
  let sign := if first < 0 then "-" else "+"
  let mantissa :=
    match Nat.toDigits 10 d.digits with
    | c :: c' :: cs => String.ofList (c :: '.' :: c' :: cs)
    | cs => String.ofList cs
  mantissa ++ "e" ++ sign ++ digitsText first.natAbs

def Layout.text (layout : Layout) (x : Binary) : String :=
  if x.mantissa = 0 then if layout.point then "0.0" else "0"
  else
    let d := x.shortest layout.tie
    let first := d.exponent + digitCount d.digits - 1
    if layout.positional first then positionalText layout.point d else scientificText first d

def Layout.signed (layout : Layout) (negative : Bool) (x : Binary) : String :=
  (if negative then "-" else "") ++ layout.text x

def Layout.text64 (layout : Layout) (x : Float) : String :=
  if x.isNaN then "NaN"
  else if x.isInf then if x < 0.0 then "-inf" else "inf"
  else layout.signed (0x8000000000000000 ≤ x.toBits.toNat) (.ofBits64 x.toBits)

def Layout.text32 (layout : Layout) (x : Float32) : String :=
  if x.isNaN then "NaN"
  else if x.isInf then if x < 0.0 then "-inf" else "inf"
  else layout.signed (0x80000000 ≤ x.toBits.toNat) (.ofBits32 x.toBits)

end Curly.Decimal

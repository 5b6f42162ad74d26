/-!
# Shortest decimals

The fewest decimal digits that read back to a binary floating-point value. A
decimal reads back to a value if it lies in the interval of reals that round to
it, the ends included exactly when the value's mantissa is even. For one digit,
two digits and so on the two decimals next to the value are tried, and of two
that read back the nearer is taken.
-/

namespace Curly.Decimal

/-- The positive value `mantissa * 2 ^ exponent`. `narrow` says that the value
below is half as far away as the one above. -/
structure Binary where
  mantissa : Nat
  exponent : Int
  narrow : Bool

def Binary.ofBits64 (bits : UInt64) : Binary :=
  let e : Nat := bits.toNat / 0x10000000000000 % 0x800
  let f := bits.toNat % 0x10000000000000
  if e = 0 then ⟨f, -1074, false⟩ else ⟨0x10000000000000 + f, (e : Int) - 1075, f = 0 && 1 < e⟩

def Binary.ofBits32 (bits : UInt32) : Binary :=
  let e : Nat := bits.toNat / 0x800000 % 0x100
  let f := bits.toNat % 0x800000
  if e = 0 then ⟨f, -149, false⟩ else ⟨0x800000 + f, (e : Int) - 150, f = 0 && 1 < e⟩

/-- The decimal `digits * 10 ^ exponent`. -/
structure Scientific where
  digits : Nat
  exponent : Int
deriving DecidableEq, Repr

inductive Tie where
  | toEven
  | upward
deriving DecidableEq

/-- Compares `a * 10 ^ i` with `b * 2 ^ j`. -/
def compareScaled (a : Nat) (i : Int) (b : Nat) (j : Int) : Ordering :=
  compare (a * Nat.pow 10 i.toNat * Nat.pow 2 (-j).toNat)
    (b * Nat.pow 2 j.toNat * Nat.pow 10 (-i).toNat)

/-- Whether the decimal lies among the reals that round to the value. -/
def Binary.readsBack (x : Binary) (d : Scientific) : Bool :=
  let low := 4 * x.mantissa - if x.narrow then 1 else 2
  let high := 4 * x.mantissa + 2
  let ends := x.mantissa % 2 = 0
  let above := compareScaled d.digits d.exponent low (x.exponent - 2)
  let below := compareScaled d.digits d.exponent high (x.exponent - 2)
  (above = .gt || ends && above = .eq) && (below = .lt || ends && below = .eq)

def digitCount (n : Nat) : Nat :=
  (Nat.toDigits 10 n).length

/-- The least `k` with the value below `10 ^ k`. -/
def Binary.scale (x : Binary) : Int :=
  let n := x.mantissa * Nat.pow 2 x.exponent.toNat
  let d := Nat.pow 2 (-x.exponent).toNat
  if d ≤ n then digitCount (n / d) else 1 - (digitCount ((d - 1) / n) : Int)

/-- The whole number of times that `10 ^ e` goes into the value. -/
def Binary.floorAt (x : Binary) (e : Int) : Nat :=
  x.mantissa * Nat.pow 2 x.exponent.toNat * Nat.pow 10 (-e).toNat /
    (Nat.pow 2 (-x.exponent).toNat * Nat.pow 10 e.toNat)

/-- The decimal on the grid of `10 ^ e` to write for the value, if one next to
the value reads back. -/
def Binary.nearest? (x : Binary) (tie : Tie) (e : Int) : Option Scientific :=
  let below := x.floorAt e
  match x.readsBack ⟨below, e⟩, x.readsBack ⟨below + 1, e⟩ with
  | false, false => none
  | true, false => some ⟨below, e⟩
  | false, true => some ⟨below + 1, e⟩
  | true, true =>
    match compareScaled (2 * below + 1) e (2 * x.mantissa) x.exponent, tie with
    | .gt, _ => some ⟨below, e⟩
    | .lt, _ => some ⟨below + 1, e⟩
    | .eq, .toEven => some ⟨if below % 2 = 0 then below else below + 1, e⟩
    | .eq, .upward => some ⟨below + 1, e⟩

def Scientific.stripped (d : Scientific) : Scientific :=
  if d.digits = 0 then d
  else if d.digits % 10 = 0 then Scientific.stripped ⟨d.digits / 10, d.exponent + 1⟩
  else d
termination_by d.digits
decreasing_by omega

def Binary.exact (x : Binary) : Scientific :=
  if 0 ≤ x.exponent then ⟨x.mantissa * Nat.pow 2 x.exponent.toNat, 0⟩
  else ⟨x.mantissa * Nat.pow 5 (-x.exponent).toNat, x.exponent⟩

/-- The shortest decimal that reads back to a value other than zero. Seventeen
digits always do. -/
def Binary.shortest (x : Binary) (tie : Tie) : Scientific :=
  let k := x.scale
  let found := (List.range 17).findSome? fun n => x.nearest? tie (k - (n + 1 : Nat))
  (found.getD x.exact).stripped

end Curly.Decimal

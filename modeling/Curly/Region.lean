/-!
# Regions of a source text

A region is a pair of byte offsets into the UTF-8 form of a text. Texts are
lists of characters here, and an offset that cuts a character or lies past the
end selects nothing.
-/

namespace Curly

/-- Number of bytes the text takes in UTF-8. -/
def byteLength : List Char → Nat
  | [] => 0
  | c :: cs => c.utf8Size + byteLength cs

/-- The first `n` bytes of the text, if they end between two characters. -/
def takeBytes? : Nat → List Char → Option (List Char)
  | 0, _ => some []
  | _ + 1, [] => none
  | n + 1, c :: cs =>
    if c.utf8Size ≤ n + 1 then (takeBytes? (n + 1 - c.utf8Size) cs).map (c :: ·) else none

/-- The text after its first `n` bytes, if they end between two characters. -/
def dropBytes? : Nat → List Char → Option (List Char)
  | 0, cs => some cs
  | _ + 1, [] => none
  | n + 1, c :: cs => if c.utf8Size ≤ n + 1 then dropBytes? (n + 1 - c.utf8Size) cs else none

/-- An area of a source text, from the byte at `start` up to the one at `stop`. -/
structure Region where
  start : Nat
  stop : Nat
deriving DecidableEq, Repr, Inhabited

namespace Region

/-- The smallest region that covers both. -/
def combine (a b : Region) : Region :=
  ⟨min a.start b.start, max a.stop b.stop⟩

def isEmpty (r : Region) : Bool :=
  r.stop ≤ r.start

/-- The text at the region if it lies within the source, on character
boundaries, and is not reversed. -/
def slice? (r : Region) (source : List Char) : Option (List Char) :=
  if r.start ≤ r.stop then (dropBytes? r.start source).bind (takeBytes? (r.stop - r.start))
  else none

/-- The text at the region, nothing where it does not fit the source. -/
def slice (r : Region) (source : List Char) : List Char :=
  (r.slice? source).getD []

end Region

theorem byteLength_append (a b : List Char) : byteLength (a ++ b) = byteLength a + byteLength b := by
  induction a with
  | nil => simp [byteLength]
  | cons c a ih => simp [byteLength, ih, Nat.add_assoc]

end Curly

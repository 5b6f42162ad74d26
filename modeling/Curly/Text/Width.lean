import Curly.Text.Columns
import Curly.Text.Emoji

/-!
# Display width

The number of terminal columns a text takes: the sum over its characters, but
for ligatures and for emoji made of several characters. A text is measured from
its end, since what a character adds depends on what follows it: the characters
of a sequence are known by their last one.
-/

namespace Curly.Text

/-! ## Ligatures -/

/-- The end of a ligature, waiting for what comes before it. -/
inductive Ligature where
  /-- An Arabic alef, to be joined to a lam. -/
  | alef
  /-- A Hebrew lamed, to be joined to an alef. -/
  | lamed
  /-- A Buginese ya, to be joined to an a with an i. -/
  | ya
  /-- A Buginese ya with the i before it. -/
  | yaWithI
  /-- A Tifinagh consonant, to be joined to another. -/
  | consonant
  /-- A Tifinagh consonant with the mark that joins it to another. -/
  | joinedConsonant
  /-- The second of two Lisu tone letters. -/
  | tone
  /-- An Old Turkic i, to be joined to an ec. -/
  | orkhonI
  /-- A Khmer letter that may be written below another. -/
  | subscript
deriving DecidableEq, Repr

namespace Ligature

def isLam (c : Char) : Bool :=
  inRanges [(0x644, 0x644), (0x6B5, 0x6B8), (0x76A, 0x76A), (0x8A6, 0x8A6), (0x8C7, 0x8C7)] c.toNat

def isAlef (c : Char) : Bool :=
  inRanges [(0x622, 0x623), (0x625, 0x625), (0x627, 0x627), (0x671, 0x673), (0x675, 0x675),
    (0x773, 0x774), (0x870, 0x882)] c.toNat

def isSubscript (c : Char) : Bool :=
  inRanges [(0x1780, 0x1782), (0x1784, 0x1787), (0x1789, 0x178C), (0x178E, 0x1793),
    (0x1795, 0x1798), (0x179B, 0x179D), (0x17A0, 0x17A0), (0x17A2, 0x17A2), (0x17A7, 0x17A7),
    (0x17AB, 0x17AC), (0x17AF, 0x17AF)] c.toNat

def isConsonant (c : Char) : Bool :=
  inRanges [(0x2D31, 0x2D65), (0x2D6F, 0x2D6F)] c.toNat

def isFirstTone (c : Char) : Bool :=
  0xA4F8 ≤ c.toNat && c.toNat ≤ 0xA4FB

/-- Marks that stand inside a ligature without breaking it, unless it is an
Arabic one. -/
def isIgnorableMark (c : Char) : Bool :=
  inRanges [(0x34F, 0x34F), (0x17B4, 0x17B5), (0x180B, 0x180D), (0x180F, 0x180F),
    (0xFE00, 0xFE0F), (0xE0100, 0xE01EF)] c.toNat

/-- The ligature that a character may end, and whether it needs no joiner. -/
def ending? (c : Char) : Option (Ligature × Bool) :=
  if isAlef c then some (.alef, true)
  else if c.toNat = 0x5DC then some (.lamed, false)
  else if c.toNat = 0x1A10 then some (.ya, false)
  else if isConsonant c then some (.consonant, false)
  else if c.toNat = 0xA4FC || c.toNat = 0xA4FD then some (.tone, true)
  else if c.toNat = 0x10C03 then some (.orkhonI, false)
  else if isSubscript c then some (.subscript, true)
  else none

end Ligature

/-! ## Sequences -/

/-- What follows a place in a text, as far as it bears on what stands before. -/
inductive Sequel where
  /-- Nothing, or what bears on nothing. -/
  | plain
  | newline
  | ligature (l : Ligature) (joined : Bool)
  | skinTone
  | indicator
  | indicators
  | emoji
  | joiner
  | joinedKeycap
  | joinedIndicator
  /-- Two indicators or more before a joiner. -/
  | joinedIndicators (odd : Bool)
  /-- The end of tags before a joiner, and so many letters before that. -/
  | tagLetters (count : Nat)
  /-- So many digits before tags that end before a joiner. -/
  | tagDigits (count : Nat)
deriving DecidableEq, Repr

/-- What a character adds before a ligature's end, if the two belong together,
and what they make up. -/
def Ligature.extend? (joined : Bool) (c : Char) : Ligature → Option (Int × Sequel)
  | .alef =>
    if isLam c then some (0, .plain)
    else if isTransparent c then some (0, .ligature .alef joined)
    else none
  | l =>
    if isJoiner c then some (0, .ligature l true)
    else if isIgnorableMark c then some (0, .ligature l joined)
    else
      match l with
      | .lamed => if joined && c.toNat = 0x5D0 then some (0, .plain) else none
      | .ya => if joined && c.toNat = 0x1A17 then some (0, .ligature .yaWithI true) else none
      | .yaWithI => if c.toNat = 0x1A15 then some (0, .plain) else none
      | .consonant =>
        if c.toNat = 0x2D7F then some (1, .ligature .joinedConsonant true)
        else if joined && isConsonant c then some (0, .plain)
        else none
      | .joinedConsonant => if isConsonant c then some (-1, .plain) else none
      | .tone => if isFirstTone c then some (0, .plain) else none
      | .orkhonI => if joined && c.toNat = 0x10C32 then some (0, .plain) else none
      | .subscript => if c.toNat = 0x17D2 then some (-1, .plain) else none
      | .alef => none

namespace Sequel

/-- What a character by itself is to the one before it. -/
def ofChar (c : Char) : Sequel :=
  match Ligature.ending? c with
  | some (l, joined) => .ligature l joined
  | none =>
    if isIndicator c then .indicator
    else if isSkinTone c then .skinTone
    else if isPicture c then .emoji
    else .plain

/-- A joiner before what is a picture. -/
def joining? (c : Char) : Option (Int × Sequel) :=
  if isJoiner c then some (0, .joiner) else none

/-- What a character adds before the sequel, if the two belong together, and
what they make up. Indicators of a flag add one column each by themselves. Those
before a joiner make up pairs that add nothing. -/
def extend? (c : Char) : Sequel → Option (Int × Sequel)
  | .plain | .newline => none
  | .ligature l joined => l.extend? joined c
  | .skinTone => if isTonable c then some (0, .emoji) else joining? c
  | .indicator => if isIndicator c then some (1, .indicators) else none
  | .indicators => if isIndicator c then some (1, .indicators) else joining? c
  | .emoji => joining? c
  | .joiner =>
    if isKeycap c then some (0, .joinedKeycap)
    else if isIndicator c then some (1, .joinedIndicator)
    else if isSkinTone c then some (0, .skinTone)
    else if isTagEnd c then some (0, .tagLetters 0)
    else if isPicture c then some (0, .emoji)
    else none
  | .joinedKeycap => none
  | .joinedIndicator => if isIndicator c then some (-1, .joinedIndicators false) else none
  | .joinedIndicators odd =>
    if isIndicator c then some (if odd then -1 else 3, .joinedIndicators !odd) else joining? c
  | .tagLetters count =>
    if isTagLetter c && count < 6 then some (0, .tagLetters (count + 1))
    else if isTagDigit c && count < 5 then some (0, .tagDigits 1)
    else if isBlackFlag c && 3 ≤ count then some (0, .emoji)
    else none
  | .tagDigits count =>
    if isTagDigit c && count < 3 then some (0, .tagDigits (count + 1))
    else if isBlackFlag c && count = 3 then some (0, .emoji)
    else none

def isLigature : Sequel → Bool
  | .ligature .. => true
  | _ => false

def isJoined : Sequel → Bool
  | .joiner | .joinedKeycap => true
  | _ => false

end Sequel

/-! ## Selectors -/

structure Place where
  sequel : Sequel
  picture : Bool
  text : Bool
deriving DecidableEq, Repr

namespace Place

def before (sequel : Sequel) : Place :=
  ⟨sequel, false, false⟩

def askPicture (p : Place) : Place :=
  if p.sequel.isLigature || p.sequel.isJoined then { p with picture := true }
  else ⟨.plain, true, false⟩

def askText (p : Place) : Place :=
  if p.sequel.isLigature then { p with text := true } else ⟨.plain, false, true⟩

/-- The place if no picture can be had: the selector breaks all but ligatures. -/
def refusePicture (p : Place) : Place :=
  if !p.picture then p
  else if p.sequel.isLigature then { p with picture := false }
  else before .plain

/-- What a character adds before the place, and the place before it. -/
def step (c : Char) (p : Place) : Int × Place :=
  if p.picture && isSelectable c then (if p.sequel.isJoined then 0 else 2, before .emoji)
  else
    let p := p.refusePicture
    if c.toNat ≤ 0xA0 then
      if c = '\n' then (1, before .newline)
      else (if c = '\r' && p.sequel = .newline then 0 else 1, before .plain)
    else if isPictureSelector c then (0, p.askPicture)
    else if isTextSelector c then (0, p.askText)
    else if p.text && isNarrowable c then (1, before .plain)
    else
      match p.sequel.extend? c with
      | some (columns, sequel) => (columns, before sequel)
      | none => (charWidth c, before (.ofChar c))

end Place

/-- What a text adds before its end, and the place before it. -/
def measure (text : List Char) : Int × Place :=
  text.foldr (fun c (columns, place) => ((place.step c).1 + columns, (place.step c).2))
    (0, .before .plain)

def width (text : List Char) : Nat :=
  (measure text).1.toNat

end Curly.Text

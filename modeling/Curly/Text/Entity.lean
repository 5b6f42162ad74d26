/-!
# Entities

A text is escaped for markup by writing seven characters as entities.
-/

namespace Curly.Text

def entity? : Char → Option String
  | '&' => some "&amp;"
  | '<' => some "&lt;"
  | '>' => some "&gt;"
  | '\x22' => some "&quot;"
  | '\x27' => some "&#x27;"
  | '\x60' => some "&#x60;"
  | '=' => some "&#x3D;"
  | _ => none

def escapedChar (c : Char) : String :=
  (entity? c).getD (String.singleton c)

def escaped (text : String) : String :=
  String.join (text.toList.map escapedChar)

/-- The pieces of a text, read on behind the given characters, last first. -/
def piecesFrom (seen : List Char) : List Char → List String
  | [] => [String.ofList seen.reverse]
  | c :: cs =>
    match entity? c with
    | some entity => String.ofList seen.reverse :: entity :: piecesFrom [] cs
    | none => piecesFrom (c :: seen) cs

/-- The escaped text in pieces: what stands before each special character, its
entity, and at last the rest. The pieces between entities may be empty. -/
def escapedPieces (text : String) : List String :=
  piecesFrom [] text.toList

theorem join_piecesFrom (seen cs : List Char) :
    String.join (piecesFrom seen cs) =
      String.ofList seen.reverse ++ String.join (cs.map escapedChar) := by
  induction cs generalizing seen with
  | nil => simp [piecesFrom]
  | cons c cs ih =>
    cases h : entity? c with
    | some entity => simp [piecesFrom, h, ih, escapedChar]
    | none =>
      simp [piecesFrom, h, ih, escapedChar, ← String.append_assoc, String.append_singleton]

theorem join_escapedPieces (text : String) : String.join (escapedPieces text) = escaped text := by
  simp [escapedPieces, escaped, join_piecesFrom]

end Curly.Text

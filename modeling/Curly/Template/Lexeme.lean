import Curly.Template.Token
import Curly.Text.Blank
import Curly.Text.Identifier

/-!
# Lexemes

A source is cut into lexemes: the tokens, and the text that no token holds.
Nothing is lost or repeated, the texts of all lexemes together are the source
(`Lexeme.texts_scan`). A scan stands either in plain text or inside a tag, and in plain
text it remembers whether the marker before asked for the blanks after it to be
dropped.
-/

namespace Curly

/-- Why a piece of the source belongs to no token. -/
inductive Gap where
  /-- Blanks between the tokens of a tag. -/
  | blank
  /-- Blanks that a marker with a tilde drops. -/
  | trimmed
  /-- The backslash that takes the meaning from the marker, or from the
  backslash, that follows it. -/
  | backslash
deriving DecidableEq, Repr

inductive Lexeme where
  | token (kind : Token.Kind) (text : List Char)
  | gap (gap : Gap) (text : List Char)
deriving DecidableEq, Repr

namespace Lexeme

def text : Lexeme → List Char
  | .token _ t => t
  | .gap _ t => t

inductive Closer where
  | double
  | triple
deriving DecidableEq, Repr

def Closer.kind : Closer → Token.Kind
  | .double => .endExpression
  | .triple => .endRaw

/-- Where a scan stands. -/
inductive Mode where
  /-- In plain text, whose first blanks are dropped if `trim`. -/
  | text (trim : Bool)
  /-- Inside a tag that has to end with `closer`. -/
  | tag (closer : Closer)
deriving DecidableEq, Repr

/-- One step of a scan: what was read, where that leads, and what is left. -/
structure Step where
  lexemes : List Lexeme
  mode : Mode
  rest : List Char

def texts (ls : List Lexeme) : List Char :=
  ls.flatMap text

@[simp] theorem texts_nil : texts [] = [] := rfl

@[simp] theorem texts_cons (l : Lexeme) (ls : List Lexeme) : texts (l :: ls) = l.text ++ texts ls := rfl

@[simp] theorem texts_append (a b : List Lexeme) : texts (a ++ b) = texts a ++ texts b :=
  List.flatMap_append

/-! ## Finding marks -/

/-- The text before the first occurrence of the mark, and the text from there
on, which is empty if the mark does not occur. -/
def splitAtMark (mark : List Char) : List Char → List Char × List Char
  | [] => ([], [])
  | c :: cs =>
    if mark.isPrefixOf (c :: cs) then ([], c :: cs)
    else (c :: (splitAtMark mark cs).1, (splitAtMark mark cs).2)

theorem splitAtMark_append (mark cs : List Char) :
    (splitAtMark mark cs).1 ++ (splitAtMark mark cs).2 = cs := by
  induction cs with
  | nil => rfl
  | cons c cs ih => unfold splitAtMark; split <;> simp [ih]

/-! ## Plain text -/

def keep (l : Lexeme) : List Lexeme :=
  if l.text.isEmpty then [] else [l]

@[simp] theorem texts_keep (l : Lexeme) : texts (keep l) = l.text := by
  unfold keep
  split <;> simp_all

/-- Plain text, with the blanks it begins or ends with cut off as asked. The
end is cut first. -/
def rawPieces (left right : Bool) (body : List Char) : List Lexeme :=
  let ended := if right then Text.splitBlanksRight body else (body, [])
  let begun := if left then Text.splitBlanksLeft ended.1 else ([], ended.1)
  keep (.gap .trimmed begun.1) ++ keep (.token .raw begun.2) ++ keep (.gap .trimmed ended.2)

theorem texts_rawPieces (left right : Bool) (body : List Char) :
    texts (rawPieces left right body) = body := by
  cases left <;> cases right <;>
    simp [rawPieces, text, Text.splitBlanksLeft_append, Text.splitBlanksRight_append,
      -List.append_assoc]

/-- What ends the search for the end of a comment: the text up to the braces
that end it and including them, whether a tilde stands before them, and the
text after them. `seen` is what was passed, last character first. A dashed
comment ends only at braces with two dashes, or with nothing, between them and
the opening dashes. -/
def splitComment (dashed : Bool) (seen : List Char) :
    List Char → Option (List Char × Bool × List Char)
  | [] => none
  | '}' :: '}' :: rest =>
    let tilde := seen.head? = some '~'
    let bare := if tilde then seen.tail else seen
    if !dashed || bare.isEmpty || ['-', '-'].isPrefixOf bare then
      some (seen.reverse ++ ['}', '}'], tilde, rest)
    else splitComment dashed ('}' :: seen) ('}' :: rest)
  | c :: rest => splitComment dashed (c :: seen) rest

theorem splitComment_append {dashed : Bool} {seen cs body rest : List Char} {trim : Bool}
    (h : splitComment dashed seen cs = some (body, trim, rest)) : body ++ rest = seen.reverse ++ cs := by
  fun_induction splitComment dashed seen cs with
  | case1 => simp at h
  | case2 seen rest' tilde bare _ => simp at h; obtain ⟨rfl, _, rfl⟩ := h; simp
  | case3 seen rest' tilde bare _ ih => simpa using ih h
  | case4 seen c rest' _ ih => simpa using ih h

/-- A comment, `body` being what follows its opening marker. -/
def scanComment (marker : List Char) (dashed : Bool) (body : List Char) : Step :=
  match splitComment dashed [] body with
  | some (inner, trim, rest) => ⟨[.token .comment (marker ++ inner)], .text trim, rest⟩
  | none => ⟨[.token (.invalid .unterminatedComment) (marker ++ body)], .text false, []⟩

/-- The opening marker that ends plain text. `opening` holds its two braces and
the tilde that may follow them, `after` what comes then. -/
def scanMarker (opening after : List Char) : Step :=
  match after with
  | '!' :: '-' :: '-' :: body => scanComment (opening ++ ['!', '-', '-']) true body
  | '!' :: body => scanComment (opening ++ ['!']) false body
  | '{' :: rest => ⟨[.token .beginRaw (opening ++ ['{'])], .tag .triple, rest⟩
  | '&' :: rest => ⟨[.token .beginRaw (opening ++ ['&'])], .tag .double, rest⟩
  | rest => ⟨[.token .beginExpression opening], .tag .double, rest⟩

/-- A tag behind a backslash, up to the braces that close it. -/
def scanEscaped (source : List Char) : Step :=
  let mark := if ['{', '{', '{'].isPrefixOf source then ['}', '}', '}'] else ['}', '}']
  let found := splitAtMark mark source
  ⟨[.token .raw (found.1 ++ found.2.take mark.length)], .text false, found.2.drop mark.length⟩

/-- The end of a text that stands before an opening marker. -/
inductive Ending where
  | plain
  /-- One backslash: the marker is text. -/
  | escape
  /-- Two backslashes: the first takes the meaning from the second. -/
  | backslash
deriving DecidableEq, Repr

def Ending.of (before : List Char) : Ending :=
  match before.reverse with
  | '\\' :: '\\' :: _ => .backslash
  | '\\' :: _ => .escape
  | _ => .plain

def piecesBefore (trim tilde : Bool) (before : List Char) : List Lexeme :=
  match Ending.of before with
  | .plain => rawPieces trim tilde before
  | _ => rawPieces trim false before.dropLast ++ [.gap .backslash ['\\']]

/-- One step in plain text: up to and including the next opening marker, a
comment or an escaped tag, or to the end. -/
def scanText (trim : Bool) (source : List Char) : Step :=
  let before := (splitAtMark ['{', '{'] source).1
  match (splitAtMark ['{', '{'] source).2 with
  | o :: p :: rest =>
    if Ending.of before = .escape then
      let escaped := scanEscaped (o :: p :: rest)
      { escaped with lexemes := piecesBefore trim false before ++ escaped.lexemes }
    else
      match rest with
      | '~' :: rest =>
        let marker := scanMarker [o, p, '~'] rest
        { marker with lexemes := piecesBefore trim true before ++ marker.lexemes }
      | rest =>
        let marker := scanMarker [o, p] rest
        { marker with lexemes := piecesBefore trim false before ++ marker.lexemes }
  | _ => ⟨rawPieces trim false source, .text false, []⟩

/-! ## Inside a tag -/

/-- The closing marker that a text begins with: what it closes, whether it
drops the blanks after the tag, the marker and the text after it. Three braces
are a marker only where they are expected. -/
def closing? : Closer → List Char → Option (Closer × Bool × List Char × List Char)
  | .triple, '}' :: '}' :: '}' :: rest => some (.triple, false, ['}', '}', '}'], rest)
  | .triple, '}' :: '~' :: '}' :: '}' :: rest => some (.triple, true, ['}', '~', '}', '}'], rest)
  | _, '~' :: '}' :: '}' :: rest => some (.double, true, ['~', '}', '}'], rest)
  | _, '}' :: '}' :: rest => some (.double, false, ['}', '}'], rest)
  | _, _ => none

/-- A quoted text behind its opening quote, up to and including the closing
one, and what follows. The character after a backslash is passed over. -/
def splitQuoted (quote : Char) : List Char → Option (List Char × List Char)
  | [] => none
  | '\\' :: c :: rest => (splitQuoted quote rest).map fun (q, r) => ('\\' :: c :: q, r)
  | c :: rest =>
    if c = quote then some ([c], rest) else (splitQuoted quote rest).map fun (q, r) => (c :: q, r)

def isNumeral (c : Char) : Bool :=
  c.isDigit || c == '.'

def isPathStart (c : Char) : Bool :=
  c == '_' || c == '.' || c == '@' || c == '[' || c == '$' || Text.isIdentifierStart c

def isPathContinue (c : Char) : Bool :=
  c == '.' || c == '/' || c == '@' || c == '-' || c == '$' || Text.isIdentifierContinue c

/-- The rest of a path, the text after it, and whether a bracket is left open,
in which case the path reaches to the end. Between brackets every character
belongs to the path. -/
def splitPath : Bool → List Char → List Char × List Char × Bool
  | bracket, [] => ([], [], bracket)
  | true, c :: rest =>
    let (p, r, b) := splitPath (c != ']') rest
    (c :: p, r, b)
  | false, c :: rest =>
    if c = '[' || isPathContinue c then
      let (p, r, b) := splitPath (c == '[') rest
      (c :: p, r, b)
    else ([], c :: rest, false)

def wordKind (word : List Char) : Token.Kind :=
  if word = ['e', 'l', 's', 'e'] then .elseKeyword
  else if word = ['t', 'r', 'u', 'e'] then .trueLiteral
  else if word = ['f', 'a', 'l', 's', 'e'] then .falseLiteral
  else if word = ['n', 'u', 'l', 'l'] then .nullLiteral
  else if word = ['u', 'n', 'd', 'e', 'f', 'i', 'n', 'e', 'd'] then .nullLiteral
  else .path

def punctuation? : Char → Option Token.Kind
  | '#' => some .hash
  | '^' => some .caret
  | '/' => some .slash
  | '>' => some .angle
  | '=' => some .assign
  | '(' => some .beginGroup
  | ')' => some .endGroup
  | _ => none

/-- The lexeme that begins with `c` inside a tag, and the text after it. -/
def scanWord (c : Char) (rest : List Char) : Lexeme × List Char :=
  match punctuation? c with
  | some kind => (.token kind [c], rest)
  | none =>
    if c = '\x22' || c = '\x27' then
      match splitQuoted c rest with
      | some (body, after) => (.token .string (c :: body), after)
      | none => (.token (.invalid .unterminatedString) (c :: rest), [])
    else if c.isDigit || (c = '-' && rest.head?.any Char.isDigit) then
      (.token .number (c :: rest.takeWhile isNumeral), rest.dropWhile isNumeral)
    else if Text.isBlank c then
      (.gap .blank (c :: rest.takeWhile Text.isBlank), rest.dropWhile Text.isBlank)
    else if isPathStart c then
      let (word, after, bracket) := splitPath (c == '[') rest
      let kind := if bracket then .invalid .unterminatedSegment else wordKind (c :: word)
      (.token kind (c :: word), after)
    else (.token (.invalid .unexpectedCharacter) [c], rest)

/-- One step inside a tag: its closing marker, or one lexeme. -/
def scanTag (expected : Closer) (source : List Char) : Step :=
  match closing? expected source with
  | some (closer, trim, marker, rest) =>
    if closer = expected then ⟨[.token closer.kind marker], .text trim, rest⟩
    else ⟨[.token (.invalid .mismatchedClose) marker], .text false, rest⟩
  | none =>
    match source with
    | '{' :: '{' :: rest => ⟨[.token (.invalid .unclosedTag) ['{', '{']], .tag expected, rest⟩
    | c :: rest => ⟨[(scanWord c rest).1], .tag expected, (scanWord c rest).2⟩
    | [] => ⟨[], .tag expected, []⟩

/-! ## The whole source -/

def scanStep : Mode → List Char → Step
  | .text trim, source => scanText trim source
  | .tag closer, source => scanTag closer source

def Step.Covers (s : Step) (source : List Char) : Prop :=
  texts s.lexemes ++ s.rest = source

theorem scanComment_covers (marker : List Char) (dashed : Bool) (body : List Char) :
    (scanComment marker dashed body).Covers (marker ++ body) := by
  unfold scanComment
  split
  · rename_i h
    simp [Step.Covers, text, splitComment_append h]
  · simp [Step.Covers, text]

theorem scanMarker_covers (opening after : List Char) :
    (scanMarker opening after).Covers (opening ++ after) := by
  unfold scanMarker
  split
  · rename_i body
    simpa using scanComment_covers (opening ++ ['!', '-', '-']) true body
  · rename_i body _
    simpa using scanComment_covers (opening ++ ['!']) false body
  all_goals simp [Step.Covers, text]

theorem scanEscaped_covers (source : List Char) : (scanEscaped source).Covers source := by
  simp [scanEscaped, Step.Covers, text, splitAtMark_append]

theorem dropLast_append_of_ending {before : List Char} (h : Ending.of before ≠ .plain) :
    before.dropLast ++ ['\\'] = before := by
  unfold Ending.of at h
  split at h
  · rename_i tail e
    have : before = tail.reverse ++ ['\\', '\\'] := by simpa using congrArg List.reverse e
    simp [this]
  · rename_i tail _ e
    have : before = tail.reverse ++ ['\\'] := by simpa using congrArg List.reverse e
    simp [this]
  · simp at h

theorem texts_piecesBefore (trim tilde : Bool) (before : List Char) :
    texts (piecesBefore trim tilde before) = before := by
  unfold piecesBefore
  split
  · exact texts_rawPieces ..
  · rename_i h
    simpa [texts_rawPieces, text] using dropLast_append_of_ending h

theorem scanText_covers (trim : Bool) (source : List Char) : (scanText trim source).Covers source := by
  have whole := splitAtMark_append ['{', '{'] source
  unfold scanText
  dsimp only
  split
  · rename_i o p rest h
    rw [h] at whole
    split
    · have := scanEscaped_covers (o :: p :: rest)
      simp_all [Step.Covers, texts_piecesBefore]
    · split
      · rename_i rest'
        have := scanMarker_covers [o, p, '~'] rest'
        simp_all [Step.Covers, texts_piecesBefore]
      · have := scanMarker_covers [o, p] rest
        simp_all [Step.Covers, texts_piecesBefore]
  · simp [Step.Covers, texts_rawPieces]

theorem closing?_append {expected closer : Closer} {trim : Bool} {source marker rest : List Char}
    (h : closing? expected source = some (closer, trim, marker, rest)) : marker ++ rest = source := by
  unfold closing? at h
  split at h <;> simp at h <;> obtain ⟨_, _, rfl, rfl⟩ := h <;> rfl

theorem splitQuoted_append {quote : Char} {source body rest : List Char}
    (h : splitQuoted quote source = some (body, rest)) : body ++ rest = source := by
  fun_induction splitQuoted quote source generalizing body rest with
  | case1 => simp at h
  | case2 c cs ih =>
    simp only [Option.map_eq_some_iff, Prod.mk.injEq, Prod.exists] at h
    obtain ⟨q, r, h, rfl, rfl⟩ := h
    simp [ih h]
  | case3 => simp at h; obtain ⟨rfl, rfl⟩ := h; rfl
  | case4 c cs _ _ ih =>
    simp only [Option.map_eq_some_iff, Prod.mk.injEq, Prod.exists] at h
    obtain ⟨q, r, h, rfl, rfl⟩ := h
    simp [ih h]

theorem splitPath_append (bracket : Bool) (source : List Char) :
    (splitPath bracket source).1 ++ (splitPath bracket source).2.1 = source := by
  fun_induction splitPath bracket source <;> simp_all

theorem scanWord_append (c : Char) (rest : List Char) :
    (scanWord c rest).1.text ++ (scanWord c rest).2 = c :: rest := by
  unfold scanWord
  split
  · rfl
  split
  · split
    · rename_i h
      simp [text, splitQuoted_append h]
    · simp [text]
  split
  · simp [text]
  split
  · simp [text]
  split
  · simp [text, splitPath_append]
  · rfl

theorem scanTag_covers (expected : Closer) (source : List Char) :
    (scanTag expected source).Covers source := by
  unfold scanTag
  split
  · rename_i h
    split <;> simp [Step.Covers, text, closing?_append h]
  · split
    · simp [Step.Covers, text]
    · simp [Step.Covers, scanWord_append]
    · rfl

theorem scanStep_covers (mode : Mode) (source : List Char) : (scanStep mode source).Covers source := by
  cases mode
  · exact scanText_covers ..
  · exact scanTag_covers ..

theorem texts_scanMarker_ne_nil (o : Char) (opening after : List Char) :
    texts (scanMarker (o :: opening) after).lexemes ≠ [] := by
  unfold scanMarker scanComment
  split <;> (try split) <;> simp [text]

theorem texts_scanEscaped_ne_nil {source : List Char} (h : source ≠ []) :
    texts (scanEscaped source).lexemes ≠ [] := by
  have (mark : List Char) (hm : mark ≠ []) :
      (splitAtMark mark source).1 ++ (splitAtMark mark source).2.take mark.length ≠ [] := by
    intro e
    obtain ⟨before, taken⟩ := List.append_eq_nil_iff.mp e
    have := splitAtMark_append mark source
    simp_all
  simp only [scanEscaped, texts_cons, texts_nil, text, List.append_nil]
  split <;> exact this _ (by simp)

theorem text_scanWord_ne_nil (c : Char) (rest : List Char) : (scanWord c rest).1.text ≠ [] := by
  unfold scanWord
  split
  · simp [text]
  split
  · split <;> simp [text]
  split
  · simp [text]
  split
  · simp [text]
  split <;> simp [text]

theorem closing?_ne_nil {expected closer : Closer} {trim : Bool} {source marker rest : List Char}
    (h : closing? expected source = some (closer, trim, marker, rest)) : marker ≠ [] := by
  unfold closing? at h
  split at h <;> simp at h <;> obtain ⟨_, _, rfl, _⟩ := h <;> simp

theorem texts_scanText_ne_nil (trim : Bool) {source : List Char} (h : source ≠ []) :
    texts (scanText trim source).lexemes ≠ [] := by
  unfold scanText
  dsimp only
  split
  · rename_i o p rest _
    split
    · simp [texts_scanEscaped_ne_nil (List.cons_ne_nil o (p :: rest))]
    · split <;> simp [texts_scanMarker_ne_nil]
  · simpa [texts_rawPieces] using h

theorem texts_scanTag_ne_nil (expected : Closer) {source : List Char} (h : source ≠ []) :
    texts (scanTag expected source).lexemes ≠ [] := by
  unfold scanTag
  split
  · rename_i m
    split <;> simp [text, closing?_ne_nil m]
  · split
    · simp [text]
    · simp [text_scanWord_ne_nil]
    · simp at h

theorem texts_scanStep_ne_nil (mode : Mode) {source : List Char} (h : source ≠ []) :
    texts (scanStep mode source).lexemes ≠ [] := by
  cases mode
  · exact texts_scanText_ne_nil _ h
  · exact texts_scanTag_ne_nil _ h

theorem scanStep_rest_lt (mode : Mode) {source : List Char} (h : source ≠ []) :
    (scanStep mode source).rest.length < source.length := by
  have whole := congrArg List.length (scanStep_covers mode source)
  have := List.length_pos_iff.mpr (texts_scanStep_ne_nil mode h)
  simp only [List.length_append] at whole
  omega

/-- The lexemes of a text that begins in the given mode. -/
def scan (mode : Mode) (source : List Char) : List Lexeme :=
  if source = [] then []
  else (scanStep mode source).lexemes ++ scan (scanStep mode source).mode (scanStep mode source).rest
termination_by source.length
decreasing_by exact scanStep_rest_lt mode ‹_›

theorem texts_scan (mode : Mode) (source : List Char) : texts (scan mode source) = source := by
  fun_induction scan mode source with
  | case1 => simp_all
  | case2 mode source _ ih => rw [texts_append, ih]; exact scanStep_covers mode source

/-- The tokens among the lexemes, `start` being the byte at which the first
lexeme begins. -/
def tokens : Nat → List Lexeme → List Token
  | _, [] => []
  | start, .token kind text :: ls =>
    ⟨kind, text, ⟨start, start + byteLength text⟩⟩ :: tokens (start + byteLength text) ls
  | start, .gap _ text :: ls => tokens (start + byteLength text) ls

end Lexeme

def Token.ofSource (source : List Char) : List Token :=
  Lexeme.tokens 0 (Lexeme.scan (.text false) source)

end Curly

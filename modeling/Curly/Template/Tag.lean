import Curly.Template.Expression
import Curly.Template.Lexeme

/-!
# Tags

A template is a sequence of tags and texts. Reading them looks at each one by
itself: which block a tag belongs to is not asked here.
-/

namespace Curly

structure Opening where
  call : Call Path
  negated : Bool
  region : Region

def Opening.name (o : Opening) : List Char :=
  o.call.head.text

inductive Tag where
  /-- A text, an output or an inclusion. -/
  | node (node : Node)
  | opening (o : Opening)
  | alternative (marker : Region)
  /-- The alternative of a block, holding a block that is closed with it. -/
  | alternativeOpening (marker : Region) (o : Opening)
  | closing (name : Option (List Char × Region)) (region : Region)

namespace Reading

/-- An output that is not escaped, behind its opening marker. -/
def rawOutput (stop : Region) (marker : Token) (tokens : List Token) :
    Except SyntaxError (Tag × List Token) := do
  let (c, rest) ← call stop (depthFor tokens) tokens
  let last : Token.Kind := if marker.text.getLast? = some '{' then .endRaw else .endExpression
  let (closing, rest) ← expect stop last rest
  .ok (.node (.output c false (marker.region.combine closing.region)), rest)

def output (stop : Region) (marker : Region) (tokens : List Token) :
    Except SyntaxError (Tag × List Token) := do
  let (c, rest) ← call stop (depthFor tokens) tokens
  let (closing, rest) ← expect stop .endExpression rest
  .ok (.node (.output c true (marker.combine closing.region)), rest)

def blockHead (stop : Region) (tokens : List Token) :
    Except SyntaxError (Call Path × List Token) := do
  let (c, rest) ← call stop (depthFor tokens) tokens
  match c.head with
  | .path p => .ok (⟨p, c.operands, c.region⟩, rest)
  | head => .error ⟨.blockHead, head.region⟩

/-- An opening tag, `negated` if a caret begins it. -/
def opening (stop : Region) (marker : Region) (negated : Bool) (tokens : List Token) :
    Except SyntaxError (Opening × List Token) := do
  let (c, rest) ← blockHead stop tokens
  if negated && !c.operands.isEmpty then .error ⟨.invertedArguments, c.region⟩
  else
    let (closing, rest) ← expect stop .endExpression rest
    .ok (⟨c, negated, marker.combine closing.region⟩, rest)

/-- What a caret begins: an alternative if nothing follows it, else a block. -/
def caret (stop : Region) (marker : Region) (tokens : List Token) : Reading Tag :=
  match tokens with
  | ⟨.endExpression, _, _⟩ :: rest => .ok (.alternative marker, rest)
  | tokens => (opening stop marker true tokens).map fun (o, rest) => (.opening o, rest)

def alternative (stop : Region) (marker : Region) (tokens : List Token) : Reading Tag :=
  match tokens with
  | ⟨.endExpression, _, _⟩ :: rest => .ok (.alternative marker, rest)
  | tokens =>
    (opening stop marker false tokens).map fun (o, rest) => (.alternativeOpening marker o, rest)

/-- A closing tag behind its slash. -/
def closing (stop : Region) (marker : Region) (tokens : List Token) : Reading Tag :=
  match tokens with
  | ⟨.path, name, region⟩ :: rest =>
    (expect stop .endExpression rest).map fun (last, rest) =>
      (.closing (some (name, region)) (marker.combine last.region), rest)
  | tokens =>
    (expect stop .endExpression tokens).map fun (last, rest) =>
      (.closing none (marker.combine last.region), rest)

def partialName (stop : Region) : List Token → Reading PartialName
  | [] => .error ⟨.endOfSource, stop⟩
  | t :: rest =>
    match t.kind with
    | .path => .ok (.fixed (String.ofList t.text), rest)
    | .string => (quoted t).map fun s => (.fixed s, rest)
    | .beginGroup =>
      (group stop (depthFor rest) t.region rest).map fun (c, rest) => (.computed c, rest)
    | .invalid fault => .error ⟨.token fault, t.region⟩
    | _ => .error ⟨.partialName, t.region⟩

/-- An inclusion behind its angle. -/
def inclusion (stop : Region) (marker : Region) (tokens : List Token) :
    Except SyntaxError (Tag × List Token) := do
  let (name, rest) ← partialName stop tokens
  match rest with
  | ⟨.endExpression, _, last⟩ :: rest =>
    .ok (.node (.inclusion name none (marker.combine last)), rest)
  | rest =>
    let (context, rest) ← expression stop (depthFor rest) rest
    let (last, rest) ← expect stop .endExpression rest
    .ok (.node (.inclusion name (some context) (marker.combine last.region)), rest)

/-- The tag behind an opening marker of two braces. -/
def tag (stop : Region) (marker : Region) (tokens : List Token) : Reading Tag :=
  match tokens with
  | ⟨.hash, _, _⟩ :: rest =>
    (opening stop marker false rest).map fun (o, rest) => (.opening o, rest)
  | ⟨.caret, _, _⟩ :: rest => caret stop marker rest
  | ⟨.elseKeyword, _, _⟩ :: rest => alternative stop marker rest
  | ⟨.slash, _, _⟩ :: rest => closing stop marker rest
  | ⟨.angle, _, _⟩ :: rest => inclusion stop marker rest
  | tokens => output stop marker tokens

/-- The tag or text that begins with the token; a comment gives none. -/
def part (stop : Region) (t : Token) (rest : List Token) : Reading (Option Tag) :=
  match t.kind with
  | .raw => .ok (some (.node (.raw (String.ofList t.text) t.region)), rest)
  | .comment => .ok (none, rest)
  | .beginRaw => (rawOutput stop t rest).map fun (tag, rest) => (some tag, rest)
  | .beginExpression => (tag stop t.region rest).map fun (tag, rest) => (some tag, rest)
  | .invalid fault => .error ⟨.token fault, t.region⟩
  | _ => .error ⟨.stray, t.region⟩

/-- The tags up to the first error, and the error. `count` bounds their number. -/
def tags (stop : Region) : Nat → List Token → List Tag × Option SyntaxError
  | _, [] => ([], none)
  | 0, _ => ([], some ⟨.endOfSource, stop⟩)
  | count + 1, t :: rest =>
    match part stop t rest with
    | .error e => ([], some e)
    | .ok (tag, rest) =>
      let (tags, e) := tags stop count rest
      (tag.toList ++ tags, e)

end Reading

/-- The tags of a source up to its first tag that is in error, and that error. -/
def Tag.ofSource (source : List Char) : List Tag × Option SyntaxError :=
  let tokens := Token.ofSource source
  let length := byteLength source
  Reading.tags ⟨length, length⟩ tokens.length tokens

end Curly
